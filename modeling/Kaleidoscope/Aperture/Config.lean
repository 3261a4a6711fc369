import Kaleidoscope.Library.Traverse

/-!
# The configuration of the gateway

What an operator writes is deserialised, folded into a builder and built. Whatever does not pass
through the builder does not reach the configuration.
-/

namespace Kaleidoscope.Aperture

/-- A socket address, the host as it is displayed. -/
structure SocketAddr where
  host : String
  port : UInt16
  deriving DecidableEq

/-- `ConfigError`. -/
inductive ConfigError where
  | parseFailed (cause : String)
  | unknownSinkKind (kind : String)
  | refusingToStart (reason : String)
  | missingJwtBlock
  | missingJwtField (name : String)
  | secretFileUnreadable (path kind : String)
  | cataloguePathNotLoaded (path cause : String)
  | identicalBindAddrs (addr : SocketAddr)
  deriving DecidableEq

/-- The text of a `ConfigError`, with how a string is quoted in it. -/
def ConfigError.message (debug : String → String) : ConfigError → String
  | .parseFailed cause => s!"config parse failed: {cause}"
  | .unknownSinkKind kind =>
    s!"unknown sink kind {debug kind}; expected \"stub\" or \"forwarding\""
  | .refusingToStart reason => reason
  | .missingJwtBlock =>
    "missing [aperture.security.auth.jwt] block: ingest auth is mandatory " ++
      "(no off switch); configure issuer/audience/secret_file/catalogue_path"
  | .missingJwtField name => s!"[aperture.security.auth.jwt] is missing the required field {name}"
  | .secretFileUnreadable path kind => s!"secret_file {path} is unreadable: {kind}"
  | .cataloguePathNotLoaded path cause => s!"catalogue_path {path} could not be loaded: {cause}"
  | .identicalBindAddrs addr =>
    s!"grpc and http bind addresses must differ; both set to {addr.host}:{addr.port}"

/-- `SinkKind`. -/
inductive SinkKind where
  | stub
  | forwarding
  deriving DecidableEq

/-- `JwtAuthConfig`. -/
structure JwtAuthConfig where
  issuer : String
  audience : String
  secretFile : String
  cataloguePath : String
  deriving DecidableEq

/-- `Config`; durations are milliseconds. -/
structure Config where
  grpcBindAddr : SocketAddr
  httpBindAddr : SocketAddr
  sinkKind : SinkKind
  forwardingEndpoint : String
  forwardingTimeout : UInt64
  maxConcurrentRequests : UInt32
  maxRecvMsgSize : Option UInt32
  drainDeadline : UInt64
  tlsEnabled : Bool
  spiffeEnabled : Bool
  jwtAuth : Option JwtAuthConfig
  deriving DecidableEq

/-- `ConfigBuilder`: the fields of the configuration to be built. -/
structure ConfigBuilder where
  fields : Config

namespace ConfigBuilder

/-- `ConfigBuilder::new`. -/
def new : ConfigBuilder where
  fields :=
    { grpcBindAddr := ⟨"0.0.0.0", 4317⟩
      httpBindAddr := ⟨"0.0.0.0", 4318⟩
      sinkKind := .stub
      forwardingEndpoint := ""
      forwardingTimeout := 5000
      maxConcurrentRequests := 1024
      maxRecvMsgSize := none
      drainDeadline := 30000
      tlsEnabled := false
      spiffeEnabled := false
      jwtAuth := none }

/-- `grpc_bind_addr`. -/
def grpcBindAddr (b : ConfigBuilder) (addr : SocketAddr) : ConfigBuilder :=
  ⟨{ b.fields with grpcBindAddr := addr }⟩

/-- `http_bind_addr`. -/
def httpBindAddr (b : ConfigBuilder) (addr : SocketAddr) : ConfigBuilder :=
  ⟨{ b.fields with httpBindAddr := addr }⟩

/-- `max_concurrent_requests`. -/
def maxConcurrentRequests (b : ConfigBuilder) (cap : UInt32) : ConfigBuilder :=
  ⟨{ b.fields with maxConcurrentRequests := cap }⟩

/-- `max_recv_msg_size`. -/
def maxRecvMsgSize (b : ConfigBuilder) (limit : UInt32) : ConfigBuilder :=
  ⟨{ b.fields with maxRecvMsgSize := some limit }⟩

/-- `drain_deadline`. -/
def drainDeadline (b : ConfigBuilder) (deadline : UInt64) : ConfigBuilder :=
  ⟨{ b.fields with drainDeadline := deadline }⟩

/-- `forwarding_sink`. -/
def forwardingSink (b : ConfigBuilder) (endpoint : String) : ConfigBuilder :=
  ⟨{ b.fields with sinkKind := .forwarding, forwardingEndpoint := endpoint }⟩

/-- `forwarding_timeout`. -/
def forwardingTimeout (b : ConfigBuilder) (timeout : UInt64) : ConfigBuilder :=
  ⟨{ b.fields with forwardingTimeout := timeout }⟩

/-- `tls_enabled`. -/
def tlsEnabled (b : ConfigBuilder) (enabled : Bool) : ConfigBuilder :=
  ⟨{ b.fields with tlsEnabled := enabled }⟩

/-- `spiffe_enabled`. -/
def spiffeEnabled (b : ConfigBuilder) (enabled : Bool) : ConfigBuilder :=
  ⟨{ b.fields with spiffeEnabled := enabled }⟩

/-- `jwt_auth_config`. -/
def jwtAuthConfig (b : ConfigBuilder) (jwtAuth : JwtAuthConfig) : ConfigBuilder :=
  ⟨{ b.fields with jwtAuth := some jwtAuth }⟩

/-- `build`: two pinned addresses must differ. -/
def build (b : ConfigBuilder) : Except ConfigError Config :=
  if b.fields.grpcBindAddr.port ≠ 0 ∧ b.fields.grpcBindAddr = b.fields.httpBindAddr then
    .error (.identicalBindAddrs b.fields.grpcBindAddr)
  else .ok b.fields

end ConfigBuilder

/-- `TransportArm`. -/
structure TransportArm where
  bindAddr : SocketAddr
  maxRecvMsgSize : Option UInt32
  maxConcurrentRequests : Option UInt32
  deriving DecidableEq

/-- `TransportSection`. -/
structure TransportSection where
  grpc : TransportArm
  http : TransportArm
  deriving DecidableEq

/-- `ForwardingSection`. -/
structure ForwardingSection where
  endpoint : Option String
  timeoutMs : Option UInt64
  deriving DecidableEq

/-- `SinkSection`. -/
structure SinkSection where
  kind : Option String
  forwarding : ForwardingSection
  deriving DecidableEq

/-- `JwtSection`. -/
structure JwtSection where
  issuer : Option String
  audience : Option String
  secretFile : Option String
  cataloguePath : Option String
  deriving DecidableEq

/-- `AuthSection`, of whose `spiffe` arm only `enabled` is read. -/
structure AuthSection where
  spiffeEnabled : Bool
  jwt : Option JwtSection
  deriving DecidableEq

/-- `SecuritySection`, of whose `tls` arm only `enabled` is read. -/
structure SecuritySection where
  tlsEnabled : Bool
  auth : AuthSection
  deriving DecidableEq

/-- `ShutdownSection`. -/
structure ShutdownSection where
  drainDeadlineMs : Option UInt64
  deriving DecidableEq

/-- `ApertureSection`. -/
structure ApertureSection where
  transport : TransportSection
  sink : SinkSection
  security : SecuritySection
  shutdown : ShutdownSection
  deriving DecidableEq

/-- `RawConfig`. -/
structure RawConfig where
  aperture : ApertureSection
  deriving DecidableEq

/-- What the loader finds on disk: whether a file can be read, and whether a catalogue loads. -/
structure Disk where
  metadata : String → Except String Unit
  loadCatalogue : String → Except String Unit

/-- `require_field`. -/
def requireField (value : Option String) (name : String) : Except ConfigError String :=
  match value with
  | some value => .ok value
  | none => .error (.missingJwtField name)

/-- `validate_jwt_auth`. -/
def validateJwtAuth (disk : Disk) (jwt : Option JwtSection) : Except ConfigError JwtAuthConfig :=
  match jwt with
  | none => .error .missingJwtBlock
  | some jwt => do
    let issuer ← requireField jwt.issuer "issuer"
    let audience ← requireField jwt.audience "audience"
    let secretFile ← requireField jwt.secretFile "secret_file"
    let cataloguePath ← requireField jwt.cataloguePath "catalogue_path"
    (disk.metadata secretFile).mapError fun kind => .secretFileUnreadable secretFile kind
    (disk.loadCatalogue cataloguePath).mapError fun e => .cataloguePathNotLoaded cataloguePath e
    return ⟨issuer, audience, secretFile, cataloguePath⟩

/-- `unimplemented_security_knob_reason`. -/
def unimplementedSecurityKnobReason (tlsEnabled spiffeEnabled : Bool) : Option String :=
  let start := "aperture v0 implements neither transport encryption nor SPIFFE auth; " ++
    "refusing to start:"
  match tlsEnabled, spiffeEnabled with
  | false, false => none
  | true, false => some (start ++ " tls.enabled=true is not implemented in v0")
  | false, true => some (start ++ " auth.spiffe.enabled=true is not implemented in v0")
  | true, true =>
    some (start ++ " tls.enabled=true and auth.spiffe.enabled=true are not implemented in v0")

/-- The refusal of a knob that is not implemented. -/
def refuseSecurityKnobs (tlsEnabled spiffeEnabled : Bool) : Except ConfigError Unit :=
  match unimplementedSecurityKnobReason tlsEnabled spiffeEnabled with
  | some reason => .error (.refusingToStart reason)
  | none => .ok ()

/-- The setting of an optional value. -/
def ConfigBuilder.setting {α : Type} (b : ConfigBuilder) (value : Option α)
    (set : ConfigBuilder → α → ConfigBuilder) : ConfigBuilder :=
  match value with
  | some value => set b value
  | none => b

/-- The sink selection of `into_config`. -/
def selectSink (b : ConfigBuilder) (sink : SinkSection) : Except ConfigError ConfigBuilder :=
  match sink.kind with
  | none => .ok b
  | some kind =>
    if kind = "stub" then .ok b
    else if kind = "forwarding" then
      .ok ((b.forwardingSink (sink.forwarding.endpoint.getD "")).setting
        sink.forwarding.timeoutMs ConfigBuilder.forwardingTimeout)
    else .error (.unknownSinkKind kind)

/-- `into_config`. -/
def RawConfig.intoConfig (disk : Disk) (raw : RawConfig) : Except ConfigError Config := do
  let aperture := raw.aperture
  let builder := (ConfigBuilder.new.grpcBindAddr aperture.transport.grpc.bindAddr).httpBindAddr
    aperture.transport.http.bindAddr
  let builder := builder.setting aperture.transport.grpc.maxConcurrentRequests
    ConfigBuilder.maxConcurrentRequests
  let builder ← selectSink builder aperture.sink
  let builder := builder.setting aperture.shutdown.drainDeadlineMs ConfigBuilder.drainDeadline
  let tlsEnabled := aperture.security.tlsEnabled
  let spiffeEnabled := aperture.security.auth.spiffeEnabled
  refuseSecurityKnobs tlsEnabled spiffeEnabled
  let builder := (builder.tlsEnabled tlsEnabled).spiffeEnabled spiffeEnabled
  let jwtAuth ← validateJwtAuth disk aperture.security.auth.jwt
  (builder.jwtAuthConfig jwtAuth).build

/-- `Config::from_toml_str`, with what figment extracts from a document. -/
def Config.fromTomlStr (extract : String → Except String RawConfig) (disk : Disk)
    (toml : String) : Except ConfigError Config :=
  match extract toml with
  | .error e => .error (.parseFailed e)
  | .ok raw => raw.intoConfig disk

/-- What a builder keeps of the limits. -/
def ConfigBuilder.limits (b : ConfigBuilder) : UInt32 × Option UInt32 :=
  (b.fields.maxConcurrentRequests, b.fields.maxRecvMsgSize)

theorem ConfigBuilder.limits_setting {α : Type} {b : ConfigBuilder} {value : Option α}
    {set : ConfigBuilder → α → ConfigBuilder} (h : ∀ b a, (set b a).limits = b.limits) :
    (b.setting value set).limits = b.limits := by
  cases value with
  | none => rfl
  | some value => exact h b value

theorem limits_selectSink {b b' : ConfigBuilder} {sink : SinkSection}
    (h : selectSink b sink = .ok b') : b'.limits = b.limits := by
  rw [selectSink] at h
  cases hkind : sink.kind with
  | none =>
    rw [hkind] at h
    rw [← Except.ok.inj h]
  | some kind =>
    rw [hkind] at h
    dsimp only at h
    split_ifs at h
    · rw [← Except.ok.inj h]
    · rw [← Except.ok.inj h]
      exact ConfigBuilder.limits_setting fun _ _ => rfl

theorem ConfigBuilder.build_eq_ok {b : ConfigBuilder} {config : Config}
    (h : b.build = .ok config) : config = b.fields := by
  rw [build] at h
  split_ifs at h
  exact (Except.ok.inj h).symm

/-- Of the two limits that an arm can set, the loader takes over the number of requests alone. -/
theorem RawConfig.intoConfig_limits {disk : Disk} {raw : RawConfig} {config : Config}
    (h : raw.intoConfig disk = .ok config) :
    config.maxConcurrentRequests =
        raw.aperture.transport.grpc.maxConcurrentRequests.getD 1024 ∧
      config.maxRecvMsgSize = none := by
  obtain ⟨builder, hsink, h⟩ := Traverse.bind_eq_ok_iff.mp h
  obtain ⟨-, -, h⟩ := Traverse.bind_eq_ok_iff.mp h
  obtain ⟨jwtAuth, -, hbuild⟩ := Traverse.bind_eq_ok_iff.mp h
  have hdrain : (builder.setting raw.aperture.shutdown.drainDeadlineMs
      ConfigBuilder.drainDeadline).limits = builder.limits :=
    ConfigBuilder.limits_setting fun _ _ => rfl
  have hlimits : (config.maxConcurrentRequests, config.maxRecvMsgSize) =
      (raw.aperture.transport.grpc.maxConcurrentRequests.getD 1024, none) := by
    rw [ConfigBuilder.build_eq_ok hbuild]
    refine (hdrain.trans (limits_selectSink hsink)).trans ?_
    cases raw.aperture.transport.grpc.maxConcurrentRequests <;> rfl
  exact Prod.mk.inj hlimits

end Kaleidoscope.Aperture
