import Kaleidoscope.Aperture.Gateway
import Kaleidoscope.QueryHttpCommon.Tenant

/-!
# Who sends

Every request that gets a permit is authenticated before its body is looked at. The listeners with
their tokens do what the gateway does with the tenants of its requests, and nothing is handed to
the sink for a tenant that no token speaks for.
-/

namespace Kaleidoscope.Aperture

open Aegis Otlp Protobuf Utf8
open Sieve (TenantScoped)
open QueryHttpCommon (Bears Refusal bearerToken bearerToken_eq_some_iff httpAuthorization
  resolveRequestTenantOrRefuse)

/-! ## Authentication -/

/-- `ANONYMOUS_TENANT`. -/
def ANONYMOUS_TENANT : TenantId := ⟨"anonymous"⟩

/-- `ingest_subject`. -/
def ingestSubject (signal : String) : String := "ingest_" ++ signal

/-- `AuthRejection`. -/
structure AuthRejection where
  reason : String
  deriving DecidableEq, Repr

/-- The line of a request that carries no token. -/
def missingBearer (subject transport : String) : Decision :=
  ⟨"aperture ingest authz decision", "", "", "deny", subject, "missing_claim", some transport⟩

/-- `authenticate`, with the lines it logs. -/
def authenticate (decode : Decode) (validator : Option Validator)
    (rawAuthorization : Option String) (signal transport : String) (now : Int) :
    Except AuthRejection TenantId × List Decision :=
  match validator with
  | none => (.ok ANONYMOUS_TENANT, [])
  | some validator =>
    match bearerToken rawAuthorization with
    | none => (.error ⟨"missing_claim"⟩, [missingBearer (ingestSubject signal) transport])
    | some token =>
      match validator.validateWithSubject decode token now (ingestSubject signal) with
      | (.ok ctx, line) => (.ok ctx.tenantId, [line])
      | (.error e, line) => (.error ⟨e.reason⟩, [line])

/-- `build_validator`. -/
def buildValidator (disk : QueryHttpCommon.Disk) (jwtAuth : JwtAuthConfig) :
    Except String Validator :=
  match disk.read jwtAuth.secretFile with
  | .error kind => .error ("secret_file " ++ jwtAuth.secretFile ++ " is unreadable: " ++ kind)
  | .ok key =>
    match loadCatalogue disk.loader jwtAuth.cataloguePath with
    | .error e =>
      .error ("catalogue_path " ++ jwtAuth.cataloguePath ++ " could not be loaded: " ++ e.text)
    | .ok catalogue => .ok ⟨jwtAuth.issuer, jwtAuth.audience, key, catalogue⟩

/-- The validator that `spawn` gives the listeners. -/
def spawnValidator (disk : QueryHttpCommon.Disk) (config : Config) :
    Except String (Option Validator) :=
  match config.jwtAuth with
  | some jwtAuth => (buildValidator disk jwtAuth).map some
  | none => .ok none

/-! ## Requests with their tokens -/

/-- A request as it arrives, at a time. -/
structure Incoming where
  transport : Transport
  signal : SignalType
  authorization : Option (List UInt8)
  now : Int
  protobuf : Bool
  body : Bytes
  deriving DecidableEq

/-- The name of a signal. -/
def signalName : SignalType → String
  | .logs => "logs"
  | .traces => "traces"
  | .metrics => "metrics"

/-- The name of a transport in the audit log. -/
def auditName : Transport → String
  | .grpc => "grpc"
  | .httpProtobuf => "http"

/-- `reject_http_unauthorized`. -/
def rejectHttpUnauthorized (reason : String) : Refusal where
  status := 401
  reason := reason ++ "\n"
  challenge := some ("Bearer error=\"invalid_token\", error_description=\"" ++ reason ++ "\"")

/-- What a client is sent. -/
inductive Sent where
  | unauthorized (refusal : Refusal)
  | unauthenticated (reason : String)
  | answered (answer : Answer)
  deriving DecidableEq

/-- The refusal of a request that is not authenticated. -/
def reject (reason : String) : Transport → Sent
  | .grpc => .unauthenticated reason
  | .httpProtobuf => .unauthorized (rejectHttpUnauthorized reason)

/-- The answer of the gateway that is sent. -/
def Sent.toAnswer : Sent → Answer
  | .answered answer => answer
  | _ => .unauthorized

section

variable (decode : Decode) (validator : Option Validator)

/-- What a request is authenticated for, with the lines that are logged. -/
def Incoming.authenticated (incoming : Incoming) : Except AuthRejection TenantId × List Decision :=
  authenticate decode validator (httpAuthorization incoming.authorization)
    (signalName incoming.signal) (auditName incoming.transport) incoming.now

/-- A request as the gateway takes it. -/
def Incoming.request (incoming : Incoming) : Request where
  transport := incoming.transport
  signal := incoming.signal
  tenant := (incoming.authenticated decode validator).1.toOption
  protobuf := incoming.protobuf
  body := incoming.body

variable {Inner : Type} (descriptors : Descriptors Inner) (prost : Prost Inner)
  {Resource : SignalType → Type} (codec : Codec Resource)

/-- The end of a request that has its permit, with the record that the sink was handed. -/
def serve (recvBodyCap : Option UInt32) (sink : OtlpSink Resource) (incoming : Incoming) :
    Sent × Option (SinkRecord Resource) :=
  match (incoming.authenticated decode validator).1 with
  | .error rejection => (reject rejection.reason incoming.transport, none)
  | .ok tenant =>
    match incoming.transport with
    | .grpc =>
      (call descriptors prost codec incoming.signal recvBodyCap sink tenant incoming.body).map
        (fun response => .answered (.called response)) id
    | .httpProtobuf =>
      if incoming.protobuf then
        (handle descriptors prost codec incoming.signal recvBodyCap sink tenant incoming.body).map
          (fun response => .answered (.posted response)) id
      else (.answered .unsupportedMediaType, none)

/-! ## Runs -/

/-- What happens to the listeners. -/
inductive IngressEvent (Resource : SignalType → Type) where
  | arrive (id : Nat) (incoming : Incoming)
  | finish (id : Nat) (sink : OtlpSink Resource)
  | abandon (id : Nat)

/-- It as the gateway sees it. -/
def IngressEvent.seen : IngressEvent Resource → GatewayEvent Resource
  | .arrive id incoming => .arrive id (incoming.request decode validator)
  | .finish id sink => .finish id sink
  | .abandon id => .abandon id

/-- What comes of an event. -/
inductive Effect (Resource : SignalType → Type) where
  /-- It is answered without a permit. -/
  | refused (incoming : Incoming) (answer : Answer)
  /-- It has a permit. -/
  | taken (incoming : Incoming) (lines : List Decision)
  | served (incoming : Incoming) (sent : Sent) (handed : Option (SinkRecord Resource))
  | left (incoming : Incoming)
  | nothing

/-- The gateway, with the requests in progress as they arrived. -/
structure Ingress where
  gateway : Gateway
  inProgress : List (Nat × Incoming)

/-- What comes of an event, and the listeners after it. -/
def Ingress.perform (w : Ingress) : IngressEvent Resource → Effect Resource × Ingress
  | .arrive id incoming =>
    match Aperture.perform descriptors prost codec w.gateway
      (.arrive id (incoming.request decode validator)) with
    | (some (_, answer), gateway) => (.refused incoming answer, { w with gateway })
    | (none, gateway) =>
      (.taken incoming (incoming.authenticated decode validator).2,
        ⟨gateway, (id, incoming) :: w.inProgress⟩)
  | .finish id sink =>
    let gateway := (Aperture.perform descriptors prost codec w.gateway (.finish id sink)).2
    match w.inProgress.find? fun entry => entry.1 = id with
    | some entry =>
      let (sent, handed) :=
        serve decode validator descriptors prost codec w.gateway.recvBodyCap sink entry.2
      (.served entry.2 sent handed, ⟨gateway, w.inProgress.erase entry⟩)
    | none => (.nothing, { w with gateway })
  | .abandon id =>
    let gateway := (Aperture.perform descriptors prost codec w.gateway (.abandon id)).2
    match w.inProgress.find? fun entry => entry.1 = id with
    | some entry =>
      (.left entry.2, ⟨gateway, w.inProgress.erase entry⟩)
    | none => (.nothing, { w with gateway })

/-- The listeners after a series of events. -/
def ingressAfter (config : Config) (events : List (IngressEvent Resource)) : Ingress :=
  Run.run (fun w event => (w.perform decode validator descriptors prost codec event).2)
    ⟨spawn config, []⟩ events

/-- What came of the events. -/
def effects (config : Config) (events : List (IngressEvent Resource)) : List (Effect Resource) :=
  Run.transcript (fun w event => (Ingress.perform decode validator descriptors prost codec w
    event).2) (fun w event => (Ingress.perform decode validator descriptors prost codec w event).1)
    ⟨spawn config, []⟩ events

end

/-! ## Tokens -/

/-- A header carries a token that speaks for a tenant: it decodes under the key that is on disk, and
its claims are those that the configuration and the catalogue on disk ask for. -/
structure SpeaksFor (decode : Decode) (disk : QueryHttpCommon.Disk) (jwtAuth : JwtAuthConfig)
    (header : Option (List UInt8)) (now : Int) (t : TenantId) (token : String)
    (claims : RawClaims) : Prop where
  carried : ∃ text, httpAuthorization header = some text ∧ Bears text token
  decoded : ∃ key, disk.read jwtAuth.secretFile = .ok key ∧ decode key token = .ok claims
  issuer : claims.iss = some jwtAuth.issuer
  audience : claims.aud = some jwtAuth.audience
  current : ∃ exp, claims.exp = some exp ∧ nowSecs now < exp
  tenant : claims.tenantId = some t.name
  listed : ∃ tenants, disk.loader.Tables jwtAuth.cataloguePath tenants ∧
    t.name ∈ tenants.map RawTenant.id
  role : ∃ role : Role, claims.kaleidoscopeRole = some role.asStr

/-- A line says what came of an authentication. -/
def Says (line : Decision) : Except AuthRejection TenantId → Prop
  | .ok t => line.decision = "allow" ∧ line.tenantId = t.name
  | .error rejection =>
    line.decision = "deny" ∧ line.tenantId = "" ∧ line.reason = rejection.reason

section Tokens

variable {decode : Decode} {disk : QueryHttpCommon.Disk} {jwtAuth : JwtAuthConfig}
  {validator : Validator}

theorem buildValidator_eq_ok_iff : buildValidator disk jwtAuth = .ok validator ↔
    validator.issuer = jwtAuth.issuer ∧ validator.audience = jwtAuth.audience ∧
      disk.read jwtAuth.secretFile = .ok validator.key ∧
      loadCatalogue disk.loader jwtAuth.cataloguePath = .ok validator.catalogue := by
  obtain ⟨issuer, audience, key, catalogue⟩ := validator
  rw [buildValidator]
  cases hread : disk.read jwtAuth.secretFile with
  | error kind => simp
  | ok key' =>
    cases hload : loadCatalogue disk.loader jwtAuth.cataloguePath with
    | error e => simp
    | ok catalogue' =>
      simp only [Except.ok.injEq, Validator.mk.injEq]
      constructor
      · rintro ⟨rfl, rfl, rfl, rfl⟩
        exact ⟨rfl, rfl, rfl, rfl⟩
      · rintro ⟨rfl, rfl, rfl, rfl⟩
        exact ⟨rfl, rfl, rfl, rfl⟩

/-- The validator vouches for the tokens that speak for a tenant. -/
theorem vouches_iff_speaksFor (h : buildValidator disk jwtAuth = .ok validator)
    {header : Option (List UInt8)} {now : Int} {t : TenantId} {token : String} {claims : RawClaims}
    (hcarried : ∃ text, httpAuthorization header = some text ∧ Bears text token) :
    (∃ role, validator.Vouches decode token now ⟨t, role⟩ claims) ↔
      SpeaksFor decode disk jwtAuth header now t token claims := by
  obtain ⟨hissuer, haudience, hread, hload⟩ := buildValidator_eq_ok_iff.mp h
  have hlisted := (loadCatalogue_spec disk.loader jwtAuth.cataloguePath).2 _ hload t
  constructor
  · rintro ⟨role, hvouches⟩
    exact
      { carried := hcarried
        decoded := ⟨_, hread, hvouches.decoded⟩
        issuer := hissuer ▸ hvouches.issuer
        audience := haudience ▸ hvouches.audience
        current := hvouches.current
        tenant := hvouches.tenant
        listed := hlisted.mp hvouches.listed
        role := ⟨role, hvouches.role⟩ }
  · intro hspeaks
    obtain ⟨key, hread', hdecoded⟩ := hspeaks.decoded
    obtain ⟨role, hrole⟩ := hspeaks.role
    cases hread.symm.trans hread'
    exact ⟨role,
      { decoded := hdecoded
        issuer := hissuer ▸ hspeaks.issuer
        audience := haudience ▸ hspeaks.audience
        current := hspeaks.current
        tenant := hspeaks.tenant
        listed := hlisted.mpr hspeaks.listed
        role := hrole }⟩

/-- What a validator makes of a header: there is no token, or it is let through, or it is not. -/
theorem authenticate_cases (decode : Decode) (validator : Validator)
    (rawAuthorization : Option String) (signal transport : String) (now : Int) :
    (bearerToken rawAuthorization = none ∧
      authenticate decode (some validator) rawAuthorization signal transport now =
        (.error ⟨"missing_claim"⟩, [missingBearer (ingestSubject signal) transport])) ∨
    ∃ token, bearerToken rawAuthorization = some token ∧
      ((∃ ctx, validator.validateInner decode token now = .ok ctx ∧
        authenticate decode (some validator) rawAuthorization signal transport now =
          (.ok ctx.tenantId, [.of (ingestSubject signal) (.ok ctx)])) ∨
      ∃ e, validator.validateInner decode token now = .error e ∧
        authenticate decode (some validator) rawAuthorization signal transport now =
          (.error ⟨e.reason⟩, [.of (ingestSubject signal) (.error e)])) := by
  cases hbearer : bearerToken rawAuthorization with
  | none => exact .inl ⟨rfl, by simp only [authenticate, hbearer]⟩
  | some token =>
    refine .inr ⟨token, rfl, ?_⟩
    cases hvalidate : validator.validateInner decode token now with
    | ok ctx => exact .inl ⟨ctx, rfl, by
        simp only [authenticate, hbearer, Validator.validateWithSubject, hvalidate]⟩
    | error e => exact .inr ⟨e, rfl, by
        simp only [authenticate, hbearer, Validator.validateWithSubject, hvalidate]⟩

/-- A request is let through for the tenants that its token speaks for. -/
theorem authenticate_eq_ok_iff (h : buildValidator disk jwtAuth = .ok validator)
    {header : Option (List UInt8)} {signal transport : String} {now : Int} {t : TenantId} :
    (authenticate decode (some validator) (httpAuthorization header) signal transport now).1 =
        .ok t ↔
      ∃ token claims, SpeaksFor decode disk jwtAuth header now t token claims := by
  have hcases := authenticate_cases decode validator (httpAuthorization header) signal transport now
  constructor
  · intro hok
    rcases hcases with ⟨-, hresult⟩ | ⟨token, hbearer, ⟨ctx, hvalid, hresult⟩ | ⟨e, -, hresult⟩⟩
    · cases (congrArg Prod.fst hresult).symm.trans hok
    · cases (congrArg Prod.fst hresult).symm.trans hok
      obtain ⟨claims, hvouches⟩ := Validator.validateInner_eq_ok_iff.mp hvalid
      exact ⟨token, claims,
        (vouches_iff_speaksFor h (bearerToken_eq_some_iff.mp hbearer)).mp ⟨ctx.role, hvouches⟩⟩
    · cases (congrArg Prod.fst hresult).symm.trans hok
  · rintro ⟨token, claims, hspeaks⟩
    have hbearer := bearerToken_eq_some_iff.mpr hspeaks.carried
    obtain ⟨role, hvouches⟩ := (vouches_iff_speaksFor h hspeaks.carried).mpr hspeaks
    have hvalid := Validator.validateInner_eq_ok_iff.mpr ⟨claims, hvouches⟩
    rcases hcases with ⟨hnone, -⟩ | ⟨token', hbearer', ⟨ctx, hvalid', hresult⟩ | ⟨e, he, -⟩⟩
    · cases hnone.symm.trans hbearer
    · cases hbearer'.symm.trans hbearer
      cases hvalid'.symm.trans hvalid
      exact congrArg Prod.fst hresult
    · cases hbearer'.symm.trans hbearer
      cases he.symm.trans hvalid

/-- One line is logged, and it says what came of the request. -/
theorem authenticate_lines (decode : Decode) (validator : Validator)
    (rawAuthorization : Option String) (signal transport : String) (now : Int) :
    ∃ line, (authenticate decode (some validator) rawAuthorization signal transport now).2 =
        [line] ∧
      line.subject = ingestSubject signal ∧
      Says line
        (authenticate decode (some validator) rawAuthorization signal transport now).1 := by
  rcases authenticate_cases decode validator rawAuthorization signal transport now with
    ⟨-, hresult⟩ | ⟨token, -, ⟨ctx, -, hresult⟩ | ⟨e, -, hresult⟩⟩
  · rw [hresult]
    exact ⟨_, rfl, rfl, rfl, rfl, rfl⟩
  · rw [hresult]
    exact ⟨_, rfl, rfl, rfl, rfl⟩
  · rw [hresult]
    exact ⟨_, rfl, rfl, rfl, rfl, rfl⟩

/-- A read service with the same validator lets the same requests through, for the same tenants, and
refuses the others for the same reasons. -/
theorem authenticate_eq_read (decode : Decode) (validator : Validator)
    (header : Option (List UInt8)) (signal transport : String) (now : Int)
    (envTenant : Option TenantId) (serviceLabel subject : String) :
    (authenticate decode (some validator) (httpAuthorization header) signal transport now).1 =
      (resolveRequestTenantOrRefuse decode (some validator) header envTenant serviceLabel subject
        now).1.mapError fun refusal => ⟨refusal.reason⟩ := by
  rcases authenticate_cases decode validator (httpAuthorization header) signal transport now with
    ⟨hbearer, hresult⟩ | ⟨token, hbearer, ⟨ctx, hvalid, hresult⟩ | ⟨e, hvalid, hresult⟩⟩
  · rw [hresult]
    simp only [resolveRequestTenantOrRefuse, hbearer]
    rfl
  · rw [hresult]
    simp only [resolveRequestTenantOrRefuse, hbearer, Validator.validateWithSubject, hvalid]
    rfl
  · rw [hresult]
    simp only [resolveRequestTenantOrRefuse, hbearer, Validator.validateWithSubject, hvalid]
    rfl

end Tokens

/-! ## What the sink is handed -/

/-- The tenant that a record is tagged with. -/
def SinkRecord.tenant {Resource : SignalType → Type} : SinkRecord Resource → TenantId
  | .logs tagged => tagged.tenant
  | .traces tagged => tagged.tenant
  | .metrics tagged => tagged.tenant

section

variable {decode : Decode} {validator : Option Validator} {Inner : Type}
  {descriptors : Descriptors Inner} {prost : Prost Inner} {Resource : SignalType → Type}
  {codec : Codec Resource}

theorem tenant_sinkRecord {signal : SignalType}
    (tagged : TenantScoped (ExportServiceRequest Resource signal)) :
    (sinkRecord signal tagged).tenant = tagged.tenant := by
  cases signal <;> rfl

/-- The sink is handed records of the tenant alone, and is handed what is accepted. -/
theorem ingest_handed {signal : SignalType} {body : Bytes} {transport : Transport}
    {tenant : TenantId} {cap : Option UInt32} {sink : OtlpSink Resource} :
    (∀ record, (ingest descriptors prost codec signal body transport tenant cap sink).2 =
        some record → record.tenant = tenant) ∧
      ((ingest descriptors prost codec signal body transport tenant cap sink).1 = .accepted →
        (ingest descriptors prost codec signal body transport tenant cap sink).2.isSome) := by
  simp only [ingest, secondaryBodySizeGuard]
  by_cases hexceeds : exceeds cap body
  · simp [hexceeds]
  · cases validate descriptors prost signal body (framingForTransport transport) with
    | error violation => simp [hexceeds]
    | ok fields =>
      simp only [hexceeds]
      cases sink (sinkRecord signal ⟨tenant, codec.request signal fields⟩) <;>
        simp [tenant_sinkRecord]

theorem handle_handed {signal : SignalType} {cap : Option UInt32} {sink : OtlpSink Resource}
    {tenant : TenantId} {body : Bytes} :
    (∀ record, (handle descriptors prost codec signal cap sink tenant body).2 = some record →
        record.tenant = tenant) ∧
      ((handle descriptors prost codec signal cap sink tenant body).1 = .ok →
        (handle descriptors prost codec signal cap sink tenant body).2.isSome) := by
  obtain ⟨htenant, haccepted⟩ := @ingest_handed _ descriptors prost _ codec signal body
    .httpProtobuf tenant cap sink
  rw [handle]
  split_ifs
  · simp
  · refine ⟨htenant, fun hok => haccepted ?_⟩
    rw [Prod.map_fst] at hok
    cases houtcome :
        (ingest descriptors prost codec signal body .httpProtobuf tenant cap sink).1 <;>
      simp [houtcome, httpResponse] at hok ⊢

theorem call_handed {signal : SignalType} {cap : Option UInt32} {sink : OtlpSink Resource}
    {tenant : TenantId} {message : Bytes} :
    (∀ record, (call descriptors prost codec signal cap sink tenant message).2 = some record →
        record.tenant = tenant) ∧
      ((call descriptors prost codec signal cap sink tenant message).1 = .ok →
        (call descriptors prost codec signal cap sink tenant message).2.isSome) := by
  rw [call]
  split_ifs
  · simp
  · cases decodeMessage descriptors prost (.request signal) message with
    | error err => simp
    | ok fields =>
      obtain ⟨htenant, haccepted⟩ := @ingest_handed _ descriptors prost _ codec signal
        (codec.encodeToVec (codec.request signal fields)) .grpc tenant cap sink
      refine ⟨htenant, fun hok => haccepted ?_⟩
      simp only [exportRequest, Prod.map_fst] at hok
      cases houtcome : (ingest descriptors prost codec signal
          (codec.encodeToVec (codec.request signal fields)) .grpc tenant cap sink).1 <;>
        simp [houtcome, grpcResponse] at hok ⊢

/-- So is it by the end of a request that is authenticated for the tenant. -/
theorem serve_of_ok {cap : Option UInt32} {sink : OtlpSink Resource} {incoming : Incoming}
    {tenant : TenantId} (h : (incoming.authenticated decode validator).1 = .ok tenant) :
    ∃ answer, (serve decode validator descriptors prost codec cap sink incoming).1 =
        .answered answer ∧
      (answer.Accepted →
        (serve decode validator descriptors prost codec cap sink incoming).2.isSome) ∧
      ∀ record, (serve decode validator descriptors prost codec cap sink incoming).2 =
        some record → record.tenant = tenant := by
  simp only [serve, h]
  cases incoming.transport with
  | grpc =>
    obtain ⟨htenant, haccepted⟩ := @call_handed _ descriptors prost _ codec incoming.signal cap
      sink tenant incoming.body
    refine ⟨.called (call descriptors prost codec incoming.signal cap sink tenant
      incoming.body).1, rfl, fun hok => haccepted ?_, htenant⟩
    simpa [Answer.Accepted] using hok
  | httpProtobuf =>
    obtain ⟨htenant, haccepted⟩ := @handle_handed _ descriptors prost _ codec incoming.signal cap
      sink tenant incoming.body
    by_cases hprotobuf : incoming.protobuf = true
    · simp only [if_pos hprotobuf]
      refine ⟨.posted (handle descriptors prost codec incoming.signal cap sink tenant
        incoming.body).1, rfl, fun hok => haccepted ?_, htenant⟩
      simpa [Answer.Accepted] using hok
    · simp only [if_neg hprotobuf]
      exact ⟨_, rfl, by simp [Answer.Accepted], by simp⟩

/-- Without a tenant the sink is handed nothing. -/
theorem serve_of_error {cap : Option UInt32} {sink : OtlpSink Resource} {incoming : Incoming}
    {rejection : AuthRejection}
    (h : (incoming.authenticated decode validator).1 = .error rejection) :
    serve decode validator descriptors prost codec cap sink incoming =
      (reject rejection.reason incoming.transport, none) := by
  simp only [serve, h]

/-- A request is answered what the gateway answers for its tenant. -/
theorem toAnswer_serve (cap : Option UInt32) (sink : OtlpSink Resource) (incoming : Incoming) :
    (serve decode validator descriptors prost codec cap sink incoming).1.toAnswer =
      respond descriptors prost codec cap sink (incoming.request decode validator) := by
  obtain ⟨transport, signal, authorization, now, protobuf, body⟩ := incoming
  simp only [serve, respond, Incoming.request]
  cases (Incoming.authenticated decode validator
    ⟨transport, signal, authorization, now, protobuf, body⟩).1 with
  | error rejection => cases transport <;> rfl
  | ok tenant => cases transport <;> cases protobuf <;> rfl

/-! ### One event -/

/-- The request that got a permit. -/
def Effect.entering : Effect Resource → List Incoming
  | .taken incoming _ => [incoming]
  | _ => []

/-- The request that dropped its permit. -/
def Effect.leaving : Effect Resource → List Incoming
  | .served incoming _ _ => [incoming]
  | .left incoming => [incoming]
  | _ => []

/-- The answer that was sent, and to which request. -/
def Effect.answer? : Effect Resource → Option (Incoming × Answer)
  | .refused incoming answer => some (incoming, answer)
  | .served incoming sent _ => some (incoming, sent.toAnswer)
  | _ => none

/-- The gateway has the requests in progress. -/
def Ingress.Mirrored (decode : Decode) (validator : Option Validator) (w : Ingress) : Prop :=
  w.gateway.inProgress = w.inProgress.map fun entry =>
    (entry.1, entry.2.request decode validator)

/-- What can come of an event. -/
inductive Ingress.Change (decode : Decode) (validator : Option Validator)
    (descriptors : Descriptors Inner) (prost : Prost Inner) (codec : Codec Resource)
    (w : Ingress) : Effect Resource → List (Nat × Incoming) → Prop where
  | refused (incoming : Incoming) (answer : Answer) (haccepted : ¬ answer.Accepted)
      (hauthorized : answer ≠ .unauthorized) :
      Change decode validator descriptors prost codec w (.refused incoming answer) w.inProgress
  | taken (id : Nat) (incoming : Incoming) :
      Change decode validator descriptors prost codec w
        (.taken incoming (incoming.authenticated decode validator).2)
        ((id, incoming) :: w.inProgress)
  | served (entry : Nat × Incoming) (hentry : entry ∈ w.inProgress) (cap : Option UInt32)
      (sink : OtlpSink Resource) :
      Change decode validator descriptors prost codec w
        (.served entry.2
          (serve decode validator descriptors prost codec cap sink entry.2).1
          (serve decode validator descriptors prost codec cap sink entry.2).2)
        (w.inProgress.erase entry)
  | left (entry : Nat × Incoming) (hentry : entry ∈ w.inProgress) :
      Change decode validator descriptors prost codec w (.left entry.2) (w.inProgress.erase entry)
  | nothing : Change decode validator descriptors prost codec w .nothing w.inProgress

/-- The entries that are found by an id are the first of their kind. -/
theorem erase_map_of_find? {l : List (Nat × Incoming)} {id : Nat} {entry : Nat × Incoming}
    (h : (l.find? fun entry => entry.1 = id) = some entry) (f : Incoming → Request) :
    (l.map fun entry => (entry.1, f entry.2)).erase (entry.1, f entry.2) =
      (l.erase entry).map fun entry => (entry.1, f entry.2) := by
  obtain ⟨hid, before, rest, rfl, hbefore⟩ := List.find?_eq_some_iff_append.mp h
  have hother : ∀ other ∈ before, other.1 ≠ entry.1 := fun other hother heq => by
    have hne := hbefore other hother
    rw [heq] at hne
    simp_all
  have hraw : entry ∉ before := fun hmem => hother entry hmem rfl
  have hseen : (entry.1, f entry.2) ∉ before.map fun entry => (entry.1, f entry.2) := by
    rintro hmem
    obtain ⟨other, hmem, heq⟩ := List.mem_map.mp hmem
    exact hother other hmem (Prod.mk.inj heq).1
  rw [List.map_append, List.map_cons, List.erase_append_right _ hseen, List.erase_cons_head,
    List.erase_append_right _ hraw, List.erase_cons_head, List.map_append]

theorem beforeService_ne_unauthorized {cap : Option UInt32} {request : Request} :
    beforeService descriptors prost cap request ≠ some .unauthorized := by
  rw [beforeService]
  split
  · simp
  · split_ifs
    · simp
    · split <;> simp

/-- The step theorem: what comes of an event is a change, the gateway does what it does with the
event as it sees it, and it is answered the same. -/
theorem Ingress.Mirrored.perform {w : Ingress} (h : w.Mirrored decode validator)
    (event : IngressEvent Resource) :
    let done := w.perform decode validator descriptors prost codec event
    let seen := Aperture.perform descriptors prost codec w.gateway (event.seen decode validator)
    done.2.Mirrored decode validator ∧ done.2.gateway = seen.2 ∧
      seen.1 = done.1.answer?.map (fun told => (told.1.request decode validator, told.2)) ∧
      w.Change decode validator descriptors prost codec done.1 done.2.inProgress := by
  have hfind (id : Nat) : (w.gateway.inProgress.find? fun entry => entry.1 = id) =
      (w.inProgress.find? fun entry => entry.1 = id).map fun entry =>
        (entry.1, entry.2.request decode validator) := by
    rw [h, List.find?_map]
    rfl
  cases event with
  | arrive id incoming =>
    simp only [Ingress.perform, IngressEvent.seen, Aperture.perform]
    cases hbefore : beforeService descriptors prost w.gateway.recvBodyCap
        (incoming.request decode validator) with
    | some answer =>
      exact ⟨h, rfl, rfl, .refused incoming answer (beforeService_eq_some hbefore).1
        fun heq => beforeService_ne_unauthorized (heq ▸ hbefore)⟩
    | none =>
      cases (w.gateway.limiter (incoming.request decode validator).transport).tryAcquire with
      | error hit =>
        exact ⟨h, rfl, rfl, .refused incoming _ (by simp [Answer.Accepted]) (by simp)⟩
      | ok limiter => exact ⟨congrArg _ h, rfl, rfl, .taken id incoming⟩
  | finish id sink =>
    simp only [Ingress.perform, IngressEvent.seen, Aperture.perform, hfind id]
    cases hentry : w.inProgress.find? fun entry => entry.1 = id with
    | none => exact ⟨h, rfl, rfl, .nothing⟩
    | some entry =>
      have hmirrored : (w.gateway.inProgress.erase (entry.1, entry.2.request decode validator)) =
          (w.inProgress.erase entry).map fun entry =>
            (entry.1, entry.2.request decode validator) := by
        rw [h, erase_map_of_find? hentry]
      refine ⟨hmirrored, rfl, ?_, .served entry (List.mem_of_find?_eq_some hentry) _ sink⟩
      exact congrArg (fun answer => some (entry.2.request decode validator, answer))
        (toAnswer_serve _ sink entry.2).symm
  | abandon id =>
    simp only [Ingress.perform, IngressEvent.seen, Aperture.perform, hfind id]
    cases hentry : w.inProgress.find? fun entry => entry.1 = id with
    | none => exact ⟨h, rfl, rfl, .nothing⟩
    | some entry =>
      have hmirrored : (w.gateway.inProgress.erase (entry.1, entry.2.request decode validator)) =
          (w.inProgress.erase entry).map fun entry =>
            (entry.1, entry.2.request decode validator) := by
        rw [h, erase_map_of_find? hentry]
      exact ⟨hmirrored, rfl, rfl, .left entry (List.mem_of_find?_eq_some hentry)⟩

/-! ### Runs -/

/-- What comes of an event is by the authentication of its request. -/
def Effect.Authenticated (decode : Decode) (validator : Option Validator)
    (descriptors : Descriptors Inner) (prost : Prost Inner) (codec : Codec Resource) :
    Effect Resource → Prop
  | .refused _ answer => ¬ answer.Accepted ∧ answer ≠ .unauthorized
  | .taken incoming lines => lines = (incoming.authenticated decode validator).2
  | .served incoming sent handed => ∃ cap sink,
    serve decode validator descriptors prost codec cap sink incoming = (sent, handed)
  | _ => True

theorem Ingress.Change.authenticated {w : Ingress} {effect : Effect Resource}
    {inProgress : List (Nat × Incoming)}
    (h : w.Change decode validator descriptors prost codec effect inProgress) :
    effect.Authenticated decode validator descriptors prost codec := by
  cases h with
  | refused incoming answer haccepted hauthorized => exact ⟨haccepted, hauthorized⟩
  | taken id incoming => rfl
  | served entry hentry cap sink => exact ⟨cap, sink, rfl⟩
  | left entry hentry => trivial
  | nothing => trivial

/-- Requests enter with a permit and leave when they drop it. -/
theorem Ingress.Change.balance {w : Ingress} {effect : Effect Resource}
    {inProgress : List (Nat × Incoming)}
    (h : w.Change decode validator descriptors prost codec effect inProgress) :
    (effect.entering ++ w.inProgress.map Prod.snd).Perm
      (effect.leaving ++ inProgress.map Prod.snd) := by
  cases h with
  | refused incoming answer haccepted hauthorized => rfl
  | taken id incoming => rfl
  | served entry hentry cap sink => exact (List.perm_cons_erase hentry).map Prod.snd
  | left entry hentry => exact (List.perm_cons_erase hentry).map Prod.snd
  | nothing => rfl

/-- What a run of the listeners is, against that of the gateway. -/
structure Refines (decode : Decode) (validator : Option Validator)
    (descriptors : Descriptors Inner) (prost : Prost Inner) (codec : Codec Resource) (w : Ingress)
    (events : List (IngressEvent Resource)) (told : List (Effect Resource)) (last : Ingress) :
    Prop where
  gateway : last.gateway = Run.run (fun g event =>
    (Aperture.perform descriptors prost codec g event).2) w.gateway
      (events.map (IngressEvent.seen decode validator))
  answers : Run.transcript (fun g event => (Aperture.perform descriptors prost codec g event).2)
    (fun g event => (Aperture.perform descriptors prost codec g event).1) w.gateway
      (events.map (IngressEvent.seen decode validator)) =
    told.map fun effect => effect.answer?.map fun sent =>
      (sent.1.request decode validator, sent.2)
  authenticated : ∀ effect ∈ told, effect.Authenticated decode validator descriptors prost codec
  balance : (told.flatMap Effect.entering ++ w.inProgress.map Prod.snd).Perm
    (told.flatMap Effect.leaving ++ last.inProgress.map Prod.snd)

/-- The run theorem. -/
theorem Ingress.Mirrored.refines {w : Ingress} (h : w.Mirrored decode validator)
    (events : List (IngressEvent Resource)) :
    Refines decode validator descriptors prost codec w events
      (Run.transcript
        (fun w event => (Ingress.perform decode validator descriptors prost codec w event).2)
        (fun w event => (Ingress.perform decode validator descriptors prost codec w event).1)
        w events)
      (Run.run
        (fun w event => (Ingress.perform decode validator descriptors prost codec w event).2)
        w events) := by
  induction events generalizing w with
  | nil => exact ⟨rfl, rfl, fun _ heffect => absurd heffect List.not_mem_nil, .refl _⟩
  | cons event events ih =>
    obtain ⟨hnext, hgateway, hanswer, hchange⟩ := h.perform event
    obtain ⟨hlast, hanswers, hauthenticated, hbalance⟩ := ih hnext
    rw [hgateway] at hlast hanswers
    refine ⟨hlast, ?_, ?_, ?_⟩
    · rw [List.map_cons, Run.transcript, hanswers, Run.transcript, List.map_cons, hanswer]
    · rw [Run.transcript]
      exact List.forall_mem_cons.mpr ⟨hchange.authenticated, hauthenticated⟩
    · have hstep := hchange.balance
      rw [List.perm_iff_count] at hstep hbalance ⊢
      intro incoming
      have hfirst := hstep incoming
      have hrest := hbalance incoming
      simp only [Run.transcript, List.flatMap_cons, List.count_append, Run.run_cons]
        at hfirst hrest ⊢
      omega

end

/-! ## The deployed gateway -/

/-- A request speaks for a tenant. -/
def Incoming.SpeaksFor (decode : Decode) (disk : QueryHttpCommon.Disk) (jwtAuth : JwtAuthConfig)
    (incoming : Incoming) (t : TenantId) : Prop :=
  ∃ token claims,
    Aperture.SpeaksFor decode disk jwtAuth incoming.authorization incoming.now t token claims

section

variable (decode : Decode) (disk : QueryHttpCommon.Disk) (jwtAuth : JwtAuthConfig)

/-- A line tells whom a request speaks for. -/
def Incoming.Audited (incoming : Incoming) (line : Decision) : Prop :=
  line.subject = ingestSubject (signalName incoming.signal) ∧
    ((∃ t, incoming.SpeaksFor decode disk jwtAuth t ∧ line.decision = "allow" ∧
        line.tenantId = t.name) ∨
      (∀ t, ¬ incoming.SpeaksFor decode disk jwtAuth t) ∧ line.decision = "deny" ∧
        line.tenantId = "")

/-- Of all that comes in, the sink is handed what speaks for a tenant, for that tenant, and one line
is logged for each request with a permit. -/
structure Vetted {Resource : SignalType → Type} (told : List (Effect Resource)) : Prop where
  refused : ∀ incoming answer, .refused incoming answer ∈ told →
    ¬ answer.Accepted ∧ answer ≠ .unauthorized
  taken : ∀ incoming lines, .taken incoming lines ∈ told →
    ∃ line, lines = [line] ∧ incoming.Audited decode disk jwtAuth line
  served : ∀ incoming sent handed, .served incoming sent handed ∈ told →
    ∃ line, .taken incoming [line] ∈ told ∧
      ((∃ t answer, incoming.SpeaksFor decode disk jwtAuth t ∧ sent = .answered answer ∧
          (answer.Accepted → handed.isSome) ∧ ∀ record, handed = some record → record.tenant = t) ∨
        (∀ t, ¬ incoming.SpeaksFor decode disk jwtAuth t) ∧
          sent = reject line.reason incoming.transport ∧ handed = none)

variable {decode disk jwtAuth}

/-- Authentication is by the token, and one line tells of it. -/
theorem Incoming.authenticated_spec {validator : Validator}
    (h : buildValidator disk jwtAuth = .ok validator) (incoming : Incoming) :
    ∃ line, (incoming.authenticated decode (some validator)).2 = [line] ∧
      incoming.Audited decode disk jwtAuth line ∧
      ((∃ t, (incoming.authenticated decode (some validator)).1 = .ok t ∧
          incoming.SpeaksFor decode disk jwtAuth t) ∨
        (incoming.authenticated decode (some validator)).1 = .error ⟨line.reason⟩ ∧
          ∀ t, ¬ incoming.SpeaksFor decode disk jwtAuth t) := by
  have hok (t : TenantId) : (incoming.authenticated decode (some validator)).1 = .ok t ↔
      incoming.SpeaksFor decode disk jwtAuth t := authenticate_eq_ok_iff h
  obtain ⟨line, hline, hsubject, hsaid⟩ := authenticate_lines decode validator
    (httpAuthorization incoming.authorization) (signalName incoming.signal)
    (auditName incoming.transport) incoming.now
  refine ⟨line, hline, ?_⟩
  change Says line (incoming.authenticated decode (some validator)).1 at hsaid
  cases hresult : (incoming.authenticated decode (some validator)).1 with
  | ok t =>
    rw [hresult] at hsaid
    have hspeaks := (hok t).mp hresult
    exact ⟨⟨hsubject, .inl ⟨t, hspeaks, hsaid⟩⟩, .inl ⟨t, rfl, hspeaks⟩⟩
  | error rejection =>
    rw [hresult] at hsaid
    have hnone (t : TenantId) : ¬ incoming.SpeaksFor decode disk jwtAuth t := fun hspeaks => by
      cases hresult.symm.trans ((hok t).mpr hspeaks)
    exact ⟨⟨hsubject, .inr ⟨hnone, hsaid.1, hsaid.2.1⟩⟩,
      .inr ⟨by rw [hsaid.2.2], hnone⟩⟩

/-- The loader takes no document without the block of the tokens. -/
theorem jwtAuth_of_fromTomlStr {extract : String → Except String RawConfig} {loaded : Disk}
    {toml : String} {config : Config} (h : Config.fromTomlStr extract loaded toml = .ok config) :
    ∃ jwtAuth, config.jwtAuth = some jwtAuth := by
  rw [Config.fromTomlStr] at h
  cases hraw : extract toml with
  | error e => simp [hraw] at h
  | ok raw =>
    simp only [hraw] at h
    obtain ⟨builder, -, h⟩ := Traverse.bind_eq_ok_iff.mp h
    obtain ⟨-, -, h⟩ := Traverse.bind_eq_ok_iff.mp h
    obtain ⟨jwtAuth, -, hbuild⟩ := Traverse.bind_eq_ok_iff.mp h
    rw [ConfigBuilder.build_eq_ok hbuild]
    exact ⟨jwtAuth, rfl⟩

variable {Inner : Type} {descriptors : Descriptors Inner} {prost : Prost Inner}
  {Resource : SignalType → Type} {codec : Codec Resource}

/-- Whatever comes in, a gateway that was started from a document hands its sink what speaks for a
tenant and nothing else, and does what the gateway does with the tenants of its requests. -/
theorem ingress_vetted {extract : String → Except String RawConfig} {loaded : Disk} {toml : String}
    {config : Config} (hconfig : Config.fromTomlStr extract loaded toml = .ok config)
    {validator : Option Validator} (hspawn : spawnValidator disk config = .ok validator)
    (events : List (IngressEvent Resource)) :
    ∃ jwtAuth, config.jwtAuth = some jwtAuth ∧
      Vetted decode disk jwtAuth
        (effects decode validator descriptors prost codec config events) ∧
      Refines decode validator descriptors prost codec ⟨spawn config, []⟩ events
        (effects decode validator descriptors prost codec config events)
        (ingressAfter decode validator descriptors prost codec config events) := by
  obtain ⟨jwtAuth, hjwtAuth⟩ := jwtAuth_of_fromTomlStr hconfig
  rw [spawnValidator, hjwtAuth] at hspawn
  obtain ⟨validator, hbuild, rfl⟩ : ∃ v, buildValidator disk jwtAuth = .ok v ∧
      validator = some v := by
    change (buildValidator disk jwtAuth).map some = .ok validator at hspawn
    cases hbuild : buildValidator disk jwtAuth with
    | error reason => rw [hbuild] at hspawn; cases hspawn
    | ok v =>
      rw [hbuild] at hspawn
      exact ⟨v, rfl, (Except.ok.inj hspawn).symm⟩
  have hrefines : Refines decode (some validator) descriptors prost codec ⟨spawn config, []⟩ events
      (effects decode (some validator) descriptors prost codec config events)
      (ingressAfter decode (some validator) descriptors prost codec config events) :=
    Ingress.Mirrored.refines (w := ⟨spawn config, []⟩) rfl events
  refine ⟨jwtAuth, hjwtAuth, ⟨fun incoming answer hmem => hrefines.authenticated _ hmem,
    fun incoming lines hmem => ?_, fun incoming sent handed hmem => ?_⟩, hrefines⟩
  · obtain ⟨line, hline, haudited, -⟩ := @Incoming.authenticated_spec decode _ _ _ hbuild incoming
    have hlines : lines = (incoming.authenticated decode (some validator)).2 :=
      hrefines.authenticated _ hmem
    exact ⟨line, hlines.trans hline, haudited⟩
  · obtain ⟨line, hline, -, hverdict⟩ := @Incoming.authenticated_spec decode _ _ _ hbuild incoming
    have htaken : .taken incoming [line] ∈
        effects decode (some validator) descriptors prost codec config events := by
      have hentered := hrefines.balance.symm.subset
        (List.mem_append_left _ (List.mem_flatMap.mpr ⟨_, hmem, List.mem_singleton_self incoming⟩))
      rw [List.map_nil, List.append_nil] at hentered
      obtain ⟨effect, heffect, hentering⟩ := List.mem_flatMap.mp hentered
      cases effect with
      | taken incoming' lines =>
        obtain rfl := List.mem_singleton.mp hentering
        have hlines : lines = (incoming.authenticated decode (some validator)).2 :=
          hrefines.authenticated _ heffect
        rw [hlines, hline] at heffect
        exact heffect
      | _ => cases hentering
    refine ⟨line, htaken, ?_⟩
    obtain ⟨cap, sink, hserve⟩ := hrefines.authenticated _ hmem
    rcases hverdict with ⟨t, hresult, hspeaks⟩ | ⟨hresult, hnone⟩
    · obtain ⟨answer, hsent, haccepted, htenant⟩ := @serve_of_ok _ _ _ descriptors prost _ codec cap
        sink incoming t hresult
      rw [hserve] at hsent haccepted htenant
      exact .inl ⟨t, answer, hspeaks, hsent, haccepted, htenant⟩
    · rw [serve_of_error hresult] at hserve
      obtain ⟨rfl, rfl⟩ := Prod.mk.inj hserve
      exact .inr ⟨hnone, rfl, rfl⟩

end

/-! ### Two posts -/

/-- The files that the document names. -/
def ingestDisk : QueryHttpCommon.Disk where
  read path := if path = "/etc/aperture/key" then .ok [1, 2, 3] else .error "entity not found"
  loader :=
    { readToString := fun path =>
        if path = "/etc/aperture/tenants.toml" then .ok QueryHttpCommon.acmeCatalogue
        else .error "No such file or directory"
      tenants := QueryHttpCommon.acmeDisk.loader.tenants }

/-- One token verifies under the key. -/
def ingestDecode : Decode := fun key token =>
  if key = [1, 2, 3] ∧ token = "a.b.c" then
    .ok ⟨some "acme", some "ingest", some 1750000000, some "acme", some "operator"⟩
  else .error .invalidSignature

def ingestValidator : Validator where
  issuer := "acme"
  audience := "ingest"
  key := [1, 2, 3]
  catalogue := QueryHttpCommon.acmeValidator.catalogue

/-- A post of a log record that leaves every field unset. -/
def emptyLogPost (authorization : Option (List UInt8)) : Incoming :=
  ⟨.httpProtobuf, .logs, authorization, 0, true, encode emptyLog.fields⟩

/-- A post with the token and one without are in progress at the same time. -/
def twoPosts : List (IngressEvent (WireResource v1)) :=
  [.arrive 0 (emptyLogPost (some QueryHttpCommon.acmeHeader)), .arrive 1 (emptyLogPost none),
    .finish 1 fun _ => .ok (), .finish 0 fun _ => .ok ()]

/-- Both have a permit, and one speaks for a tenant. -/
theorem twoPosts_vetted :
    ∃ jwtAuth, (documentConfig 2).jwtAuth = some jwtAuth ∧
      Vetted ingestDecode ingestDisk jwtAuth (effects ingestDecode (some ingestValidator) v1
        plainProst (wireCodec v1) (documentConfig 2) twoPosts) ∧
      Refines ingestDecode (some ingestValidator) v1 plainProst (wireCodec v1)
        ⟨spawn (documentConfig 2), []⟩ twoPosts
        (effects ingestDecode (some ingestValidator) v1 plainProst (wireCodec v1)
          (documentConfig 2) twoPosts)
        (ingressAfter ingestDecode (some ingestValidator) v1 plainProst (wireCodec v1)
          (documentConfig 2) twoPosts) :=
  ingress_vetted fromTomlStr_two_requests
    (rfl : spawnValidator ingestDisk (documentConfig 2) = .ok (some ingestValidator)) twoPosts

end Kaleidoscope.Aperture
