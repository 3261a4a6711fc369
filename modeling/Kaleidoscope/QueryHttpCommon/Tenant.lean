import Kaleidoscope.Aegis.Validator
import Kaleidoscope.QueryApi.Selector

/-!
# Who reads

With the keys of a validator in the environment every request is read for the tenant of its token;
without them, for the one tenant of the environment. Nothing falls back from the first to the
second.
-/

namespace Kaleidoscope.QueryHttpCommon

open Aegis QueryApi

/-! ## The header -/

/-- `HeaderValue::to_str`: visible ASCII and tabs. -/
def toStr (value : List UInt8) : Option String :=
  if value.all fun b => (32 ≤ b && b < 127) || b = 9 then
    some (String.ofList (value.map fun b => Char.ofNat b.toNat))
  else none

/-- `http_authorization`, of the first value of the header. -/
def httpAuthorization (header : Option (List UInt8)) : Option String := header.bind toStr

/-- `str::split_once` at a space. -/
def splitOnce (t : List Char) : Option (List Char × List Char) :=
  match t.dropWhile (· ≠ ' ') with
  | _ :: rest => some (t.takeWhile (· ≠ ' '), rest)
  | [] => none

/-- What follows the scheme of a bearer: first in its own case, then in any. -/
def afterScheme (raw : List Char) : Option (List Char) :=
  if "Bearer ".toList.isPrefixOf raw then some (raw.drop 7)
  else
    match splitOnce raw with
    | some (scheme, rest) => if scheme.map Char.toLower = "bearer".toList then some rest else none
    | none => none

/-- `bearer_token`. -/
def bearerToken (raw : Option String) : Option String :=
  match raw with
  | none => none
  | some raw =>
    match afterScheme raw.toList with
    | none => none
    | some rest =>
      let token := trim (String.ofList rest)
      if token = [] then none else some (String.ofList token)

/-- A header carries a token: after the word `bearer` and a space, with white space around it. -/
structure Bears (raw token : String) : Prop where
  scheme : ∃ scheme rest, raw.toList = scheme ++ ' ' :: rest ∧
    scheme.map Char.toLower = "bearer".toList ∧ trim (String.ofList rest) = token.toList
  ne : token ≠ ""

theorem splitOnce_append {scheme rest : List Char} (h : ' ' ∉ scheme) :
    splitOnce (scheme ++ ' ' :: rest) = some (scheme, rest) := by
  have hscheme : ∀ c ∈ scheme, decide (c ≠ ' ') = true := fun c hc =>
    decide_eq_true fun heq => h (heq ▸ hc)
  rw [splitOnce, List.dropWhile_append_of_pos hscheme, List.takeWhile_append_of_pos hscheme]
  simp

theorem eq_of_splitOnce {t scheme rest : List Char} (h : splitOnce t = some (scheme, rest)) :
    t = scheme ++ ' ' :: rest := by
  have hhead := List.head?_dropWhile_not (· ≠ ' ') t
  rw [splitOnce] at h
  split at h
  next c u hdrop =>
    cases h
    rw [hdrop] at hhead
    obtain rfl : c = ' ' := by simpa using hhead
    rw [← hdrop, List.takeWhile_append_dropWhile]
  next => cases h

/-- The two ways to find the scheme agree. -/
theorem afterScheme_eq_some_iff {raw rest : List Char} : afterScheme raw = some rest ↔
    ∃ scheme, raw = scheme ++ ' ' :: rest ∧ scheme.map Char.toLower = "bearer".toList := by
  constructor
  · intro h
    rw [afterScheme] at h
    split_ifs at h with hown
    · obtain ⟨u, rfl⟩ := List.isPrefixOf_iff_prefix.mp hown
      cases h
      exact ⟨"Bearer".toList, rfl, by decide⟩
    · split at h
      next scheme u hsplit =>
        split_ifs at h with hscheme
        cases h
        exact ⟨scheme, eq_of_splitOnce hsplit, hscheme⟩
      next => cases h
  · rintro ⟨scheme, rfl, hscheme⟩
    have hlength : scheme.length = 6 := by
      have hmap := congrArg List.length hscheme
      rwa [List.length_map] at hmap
    have hspace : ' ' ∉ scheme := by
      intro hmem
      have hlower : ' ' ∈ scheme.map Char.toLower := List.mem_map.mpr ⟨' ', hmem, rfl⟩
      rw [hscheme] at hlower
      exact absurd hlower (by decide)
    rw [afterScheme]
    split_ifs with hown
    · rw [List.drop_append, List.drop_eq_nil_of_le (by omega), hlength]
      rfl
    · rw [splitOnce_append hspace]
      exact if_pos hscheme

theorem bearerToken_eq_some_iff {raw : Option String} {token : String} :
    bearerToken raw = some token ↔ ∃ text, raw = some text ∧ Bears text token := by
  cases raw with
  | none => simp [bearerToken]
  | some text =>
    simp only [Option.some.injEq, exists_eq_left']
    constructor
    · intro h
      rw [bearerToken] at h
      split at h
      · cases h
      next rest hafter =>
        obtain ⟨scheme, htext, hscheme⟩ := afterScheme_eq_some_iff.mp hafter
        dsimp only at h
        split_ifs at h with hempty
        obtain rfl := Option.some.inj h
        refine ⟨⟨scheme, rest, htext, hscheme, String.toList_ofList.symm⟩, fun hnil => hempty ?_⟩
        rw [← String.toList_ofList (l := trim (String.ofList rest)), hnil]
        rfl
    · rintro ⟨⟨scheme, rest, htext, hscheme, htoken⟩, hne⟩
      have hafter := afterScheme_eq_some_iff.mpr ⟨scheme, htext, hscheme⟩
      have htoken' : token.toList ≠ [] := fun hnil => hne (String.toList_inj.mp hnil)
      simp only [bearerToken, hafter, htoken, if_neg htoken', String.ofList_toList]

/-! ## Refusals -/

/-- A refusal: its status, the reason in its body, and its challenge. -/
structure Refusal where
  status : Nat
  reason : String
  challenge : Option String
  deriving DecidableEq, Repr

/-- `error_response`. -/
def errorResponse (status : Nat) (reason : String) : Refusal := ⟨status, reason, none⟩

/-- `reject_unauthorized`. -/
def rejectUnauthorized (reason : String) : Refusal :=
  { errorResponse 401 reason with
    challenge := some ("Bearer error=\"invalid_token\", error_description=\"" ++ reason ++ "\"") }

/-- `resolve_tenant_or_refuse`. -/
def resolveTenantOrRefuse (tenant : Option TenantId) (serviceLabel : String) :
    Except Refusal TenantId :=
  match tenant with
  | some t => .ok t
  | none => .error (errorResponse 401
      ("no tenant resolvable: " ++ serviceLabel ++ " service refuses unscoped requests"))

/-- The line of a request without a token. -/
def missingClaim (subject : String) : Decision :=
  ⟨"read-path authz decision", "", "", "deny", subject, "missing_claim", none⟩

/-- `resolve_request_tenant_or_refuse`, with the lines it logs. -/
def resolveRequestTenantOrRefuse (decode : Decode) (auth : Option Validator)
    (header : Option (List UInt8)) (envTenant : Option TenantId) (serviceLabel subject : String)
    (now : Int) : Except Refusal TenantId × List Decision :=
  match auth with
  | none => (resolveTenantOrRefuse envTenant serviceLabel, [])
  | some validator =>
    match bearerToken (httpAuthorization header) with
    | none => (.error (rejectUnauthorized "missing_claim"), [missingClaim subject])
    | some token =>
      match validator.validateWithSubject decode token now subject with
      | (.ok context, line) => (.ok context.tenantId, [line])
      | (.error error, line) => (.error (rejectUnauthorized error.reason), [line])

/-! ## The start -/

/-- The variables of a service that its validator is built from, and what they are called
together. -/
structure AuthKeys where
  issuer : String
  audience : String
  secretFile : String
  catalogue : String
  family : String

/-- The variables that start with a family. -/
def AuthKeys.of (family : String) : AuthKeys :=
  ⟨family ++ "ISSUER", family ++ "AUDIENCE", family ++ "SECRET_FILE", family ++ "CATALOGUE", family⟩

/-- The variables of the metrics service. -/
def metricsAuthKeys : AuthKeys := .of "KALEIDOSCOPE_QUERY_AUTH_"

/-- The variables of the logs service. -/
def logsAuthKeys : AuthKeys := .of "KALEIDOSCOPE_LOG_QUERY_AUTH_"

/-- The variables of the traces service. -/
def tracesAuthKeys : AuthKeys := .of "KALEIDOSCOPE_TRACE_QUERY_AUTH_"

/-- The values of the four variables. -/
structure AuthEnv where
  issuer : Option String
  audience : Option String
  secretFile : Option String
  catalogue : Option String
  deriving DecidableEq, Repr

/-- `non_empty`. -/
def nonEmpty (value : Option String) : Option String := value.filter (· ≠ "")

/-- `resolve_tenant`. -/
def resolveTenant (envValue : Option String) : Option TenantId := (nonEmpty envValue).map .mk

/-- `partial_reason`. -/
def partialReason (keys : AuthKeys) (present : List Bool) : String :=
  let missing := ([keys.issuer, keys.audience, keys.secretFile, keys.catalogue].zip present).filter
    fun entry => !entry.2
  "partial read-auth config: missing " ++ ", ".intercalate (missing.map Prod.fst) ++
    " (all four " ++ keys.family ++ "* keys are required when read-auth is enabled)"

/-- What a service finds on disk: the bytes of a file or the kind of the error, and catalogues. -/
structure Disk where
  read : String → Except String (List UInt8)
  loader : Loader

/-- `build_read_validator`. -/
def buildReadValidator (disk : Disk) (issuer audience secretFile cataloguePath : String) :
    Except String Validator :=
  match disk.read secretFile with
  | .error kind => .error ("read-auth secret_file " ++ secretFile ++ " is unreadable: " ++ kind)
  | .ok key =>
    match loadCatalogue disk.loader cataloguePath with
    | .error e =>
      .error ("read-auth catalogue " ++ cataloguePath ++ " could not be loaded: " ++ e.text)
    | .ok catalogue => .ok ⟨issuer, audience, key, catalogue⟩

/-- `resolve_read_auth`. -/
def resolveReadAuth (keys : AuthKeys) (disk : Disk) (env : AuthEnv) :
    Except String (Option Validator) :=
  match nonEmpty env.issuer, nonEmpty env.audience, nonEmpty env.secretFile,
    nonEmpty env.catalogue with
  | none, none, none, none => .ok none
  | some issuer, some audience, some secretFile, some catalogue =>
    match buildReadValidator disk issuer audience secretFile catalogue with
    | .ok validator => .ok (some validator)
    | .error reason => .error reason
  | issuer, audience, secretFile, catalogue => .error (partialReason keys
      [issuer.isSome, audience.isSome, secretFile.isSome, catalogue.isSome])

/-- No variable is set. -/
def AuthEnv.Unset (env : AuthEnv) : Prop :=
  nonEmpty env.issuer = none ∧ nonEmpty env.audience = none ∧ nonEmpty env.secretFile = none ∧
    nonEmpty env.catalogue = none

/-- A validator is the one of an environment. -/
structure AuthEnv.Builds (env : AuthEnv) (disk : Disk) (validator : Validator) : Prop where
  issuer : nonEmpty env.issuer = some validator.issuer
  audience : nonEmpty env.audience = some validator.audience
  key : ∃ path, nonEmpty env.secretFile = some path ∧ disk.read path = .ok validator.key
  catalogue : ∃ path, nonEmpty env.catalogue = some path ∧
    loadCatalogue disk.loader path = .ok validator.catalogue

theorem buildReadValidator_eq_ok_iff {disk : Disk}
    {issuer audience secretFile cataloguePath : String} {validator : Validator} :
    buildReadValidator disk issuer audience secretFile cataloguePath = .ok validator ↔
      validator.issuer = issuer ∧ validator.audience = audience ∧
        disk.read secretFile = .ok validator.key ∧
        loadCatalogue disk.loader cataloguePath = .ok validator.catalogue := by
  rw [buildReadValidator]
  cases hread : disk.read secretFile with
  | error kind => simp
  | ok key =>
    cases hload : loadCatalogue disk.loader cataloguePath with
    | error e => simp
    | ok catalogue =>
      obtain ⟨issuer', audience', key', catalogue'⟩ := validator
      simp only [Except.ok.injEq, Validator.mk.injEq]
      constructor
      · rintro ⟨rfl, rfl, rfl, rfl⟩
        exact ⟨rfl, rfl, rfl, rfl⟩
      · rintro ⟨rfl, rfl, rfl, rfl⟩
        exact ⟨rfl, rfl, rfl, rfl⟩

/-- A service starts with no variable set, or with all four and what they name. -/
theorem resolveReadAuth_eq_ok_iff {keys : AuthKeys} {disk : Disk} {env : AuthEnv}
    {auth : Option Validator} : resolveReadAuth keys disk env = .ok auth ↔
      (auth = none ∧ env.Unset) ∨
        ∃ validator, auth = some validator ∧ env.Builds disk validator := by
  rw [resolveReadAuth]
  split
  next hissuer haudience hsecret hcatalogue =>
    constructor
    · rintro ⟨⟩
      exact .inl ⟨rfl, hissuer, haudience, hsecret, hcatalogue⟩
    · rintro (⟨rfl, -⟩ | ⟨validator, -, hbuilds⟩)
      · rfl
      · cases hissuer.symm.trans hbuilds.issuer
  next issuer audience secretFile catalogue hissuer haudience hsecret hcatalogue =>
    constructor
    · intro h
      split at h
      next validator hbuild =>
        cases h
        obtain ⟨rfl, rfl, hread, hload⟩ := buildReadValidator_eq_ok_iff.mp hbuild
        exact .inr ⟨validator, rfl, hissuer, haudience, ⟨_, hsecret, hread⟩, _, hcatalogue, hload⟩
      next => cases h
    · rintro (⟨-, hunset⟩ | ⟨validator, rfl, hbuilds⟩)
      · cases hissuer.symm.trans hunset.1
      · obtain ⟨path, hpath, hread⟩ := hbuilds.key
        obtain ⟨cataloguePath, hcataloguePath, hload⟩ := hbuilds.catalogue
        cases hsecret.symm.trans hpath
        cases hcatalogue.symm.trans hcataloguePath
        cases hissuer.symm.trans hbuilds.issuer
        cases haudience.symm.trans hbuilds.audience
        rw [buildReadValidator_eq_ok_iff.mpr ⟨rfl, rfl, hread, hload⟩]
  next hnone hsome =>
    constructor
    · intro h
      cases h
    · rintro (⟨-, hunset⟩ | ⟨validator, -, hbuilds⟩)
      · exact (hnone hunset.1 hunset.2.1 hunset.2.2.1 hunset.2.2.2).elim
      · obtain ⟨path, hpath, -⟩ := hbuilds.key
        obtain ⟨cataloguePath, hcataloguePath, -⟩ := hbuilds.catalogue
        exact (hsome _ _ _ _ hbuilds.issuer hbuilds.audience hpath hcataloguePath).elim

/-! ## Requests -/

/-- A header carries a token that entitles to read for a tenant: it decodes under the key that is on
disk, and its claims are those that the environment and the catalogue on disk ask for. -/
structure Entitles (decode : Decode) (disk : Disk) (env : AuthEnv) (header : Option (List UInt8))
    (now : Int) (t : TenantId) (token : String) (claims : RawClaims) : Prop where
  carried : ∃ text, httpAuthorization header = some text ∧ Bears text token
  decoded : ∃ path key, nonEmpty env.secretFile = some path ∧ disk.read path = .ok key ∧
    decode key token = .ok claims
  issuer : claims.iss = nonEmpty env.issuer
  audience : claims.aud = nonEmpty env.audience
  current : ∃ exp, claims.exp = some exp ∧ nowSecs now < exp
  tenant : claims.tenantId = some t.name
  listed : ∃ path tenants, nonEmpty env.catalogue = some path ∧
    disk.loader.Tables path tenants ∧ t.name ∈ tenants.map RawTenant.id
  role : ∃ role : Role, claims.kaleidoscopeRole = some role.asStr

/-- A line says what came of a request. -/
def Tells (line : Decision) : Except Refusal TenantId → Prop
  | .ok t => line.decision = "allow" ∧ line.tenantId = t.name
  | .error refusal => line.decision = "deny" ∧ line.tenantId = "" ∧ refusal.status = 401 ∧
    refusal.reason = line.reason

section Requests

variable {decode : Decode} {disk : Disk} {env : AuthEnv} {header : Option (List UInt8)} {now : Int}
  {t : TenantId}

theorem AuthEnv.Builds.vouches_iff {validator : Validator} (h : env.Builds disk validator)
    {token : String} {claims : RawClaims}
    (hcarried : ∃ text, httpAuthorization header = some text ∧ Bears text token) :
    (∃ role, validator.Vouches decode token now ⟨t, role⟩ claims) ↔
      Entitles decode disk env header now t token claims := by
  obtain ⟨path, hpath, hread⟩ := h.key
  obtain ⟨cataloguePath, hcataloguePath, hload⟩ := h.catalogue
  have hlisted := (loadCatalogue_spec disk.loader cataloguePath).2 _ hload t
  constructor
  · rintro ⟨role, hvouches⟩
    obtain ⟨tenants, htables, hmem⟩ := hlisted.mp hvouches.listed
    exact
      { carried := hcarried
        decoded := ⟨path, _, hpath, hread, hvouches.decoded⟩
        issuer := hvouches.issuer.trans h.issuer.symm
        audience := hvouches.audience.trans h.audience.symm
        current := hvouches.current
        tenant := hvouches.tenant
        listed := ⟨cataloguePath, tenants, hcataloguePath, htables, hmem⟩
        role := ⟨role, hvouches.role⟩ }
  · intro hentitles
    obtain ⟨path', key, hpath', hread', hdecoded⟩ := hentitles.decoded
    obtain ⟨cataloguePath', tenants, hcataloguePath', htables, hmem⟩ := hentitles.listed
    obtain ⟨role, hrole⟩ := hentitles.role
    cases hpath.symm.trans hpath'
    cases hread.symm.trans hread'
    cases hcataloguePath.symm.trans hcataloguePath'
    exact ⟨role,
      { decoded := hdecoded
        issuer := hentitles.issuer.trans h.issuer
        audience := hentitles.audience.trans h.audience
        current := hentitles.current
        tenant := hentitles.tenant
        listed := hlisted.mpr ⟨tenants, htables, hmem⟩
        role := hrole }⟩

theorem resolveTenant_eq_some_iff {envValue : Option String} :
    resolveTenant envValue = some t ↔ envValue = some t.name ∧ t.name ≠ "" := by
  obtain ⟨name⟩ := t
  cases envValue with
  | none => simp [resolveTenant, nonEmpty]
  | some value =>
    by_cases hempty : value = ""
    · simp [resolveTenant, nonEmpty, hempty]
    · simp [resolveTenant, nonEmpty]

/-- What a validator makes of a request: there is no token, or it is let through, or it is not. -/
theorem resolveRequest_cases (decode : Decode) (validator : Validator)
    (header : Option (List UInt8)) (envTenant : Option TenantId) (serviceLabel subject : String)
    (now : Int) :
    let resolved := resolveRequestTenantOrRefuse decode (some validator) header envTenant
      serviceLabel subject now
    (bearerToken (httpAuthorization header) = none ∧
      resolved = (.error (rejectUnauthorized "missing_claim"), [missingClaim subject])) ∨
    ∃ token, bearerToken (httpAuthorization header) = some token ∧
      ((∃ ctx, validator.validateInner decode token now = .ok ctx ∧
        resolved = (.ok ctx.tenantId, [Decision.of subject (.ok ctx)])) ∨
      ∃ err, validator.validateInner decode token now = .error err ∧ resolved =
        (.error (rejectUnauthorized err.reason), [Decision.of subject (.error err)])) := by
  cases hbearer : bearerToken (httpAuthorization header) with
  | none => exact .inl ⟨rfl, by simp only [resolveRequestTenantOrRefuse, hbearer]⟩
  | some token =>
    refine .inr ⟨token, rfl, ?_⟩
    cases hvalidate : validator.validateInner decode token now with
    | ok ctx => exact .inl ⟨ctx, rfl, by
        simp only [resolveRequestTenantOrRefuse, hbearer, Validator.validateWithSubject, hvalidate]⟩
    | error err => exact .inr ⟨err, rfl, by
        simp only [resolveRequestTenantOrRefuse, hbearer, Validator.validateWithSubject, hvalidate]⟩

/-- Each request is read for the tenant that its token entitles it to, or, with no variable set, for
the tenant of the environment. Under a validator the environment is not looked at, and each request
leaves one line, which says what came of it. -/
theorem served_under_iff {keys : AuthKeys} {auth : Option Validator}
    (hstart : resolveReadAuth keys disk env = .ok auth) (header : Option (List UInt8))
    (envValue : Option String) (serviceLabel subject : String) (now : Int) :
    let resolved := resolveRequestTenantOrRefuse decode auth header (resolveTenant envValue)
      serviceLabel subject now
    (∀ t, resolved.1 = .ok t ↔ (env.Unset ∧ envValue = some t.name ∧ t.name ≠ "") ∨
      ∃ token claims, Entitles decode disk env header now t token claims) ∧
    (¬ env.Unset → ∀ envValue', resolved = resolveRequestTenantOrRefuse decode auth header
      (resolveTenant envValue') serviceLabel subject now) ∧
    (if auth = none then resolved.2 = [] else
      ∃ line, resolved.2 = [line] ∧ line.subject = subject ∧ Tells line resolved.1) := by
  rcases resolveReadAuth_eq_ok_iff.mp hstart with ⟨rfl, hunset⟩ | ⟨validator, rfl, hbuilds⟩
  · -- without a validator no token entitles
    intro resolved
    refine ⟨fun t => ?_, fun hset => absurd hunset hset, ?_⟩
    · have hnone : ¬ ∃ token claims, Entitles decode disk env header now t token claims := by
        rintro ⟨token, claims, hentitles⟩
        obtain ⟨path, key, hpath, -⟩ := hentitles.decoded
        cases hunset.2.2.1.symm.trans hpath
      rw [or_iff_left hnone, and_iff_right hunset, ← resolveTenant_eq_some_iff]
      change resolveTenantOrRefuse (resolveTenant envValue) serviceLabel = .ok t ↔ _
      cases resolveTenant envValue <;> simp [resolveTenantOrRefuse]
    · rw [if_pos rfl]
      rfl
  · have hset : ¬ env.Unset := fun hunset => by cases hunset.1.symm.trans hbuilds.issuer
    intro resolved
    have hcases := resolveRequest_cases decode validator header (resolveTenant envValue)
      serviceLabel subject now
    refine ⟨fun t => ?_, fun _ _ => rfl, ?_⟩
    · rw [or_iff_right fun h => hset h.1]
      constructor
      · intro hserved
        rcases hcases with ⟨-, hresolved⟩ | ⟨token, hbearer, hvalidated | hrefused⟩
        · cases (congrArg Prod.fst hresolved).symm.trans hserved
        · obtain ⟨ctx, hok, hresolved⟩ := hvalidated
          cases (congrArg Prod.fst hresolved).symm.trans hserved
          obtain ⟨claims, hvouches⟩ := Validator.validateInner_eq_ok_iff.mp hok
          exact ⟨token, claims,
            (hbuilds.vouches_iff (bearerToken_eq_some_iff.mp hbearer)).mp ⟨ctx.role, hvouches⟩⟩
        · obtain ⟨err, -, hresolved⟩ := hrefused
          cases (congrArg Prod.fst hresolved).symm.trans hserved
      · rintro ⟨token, claims, hentitles⟩
        have hbearer := bearerToken_eq_some_iff.mpr hentitles.carried
        obtain ⟨role, hvouches⟩ := (hbuilds.vouches_iff hentitles.carried).mpr hentitles
        have hok := Validator.validateInner_eq_ok_iff.mpr ⟨claims, hvouches⟩
        rcases hcases with ⟨hnone, -⟩ | ⟨token', hbearer', hvalidated | hrefused⟩
        · cases hnone.symm.trans hbearer
        · obtain ⟨ctx, hok', hresolved⟩ := hvalidated
          cases hbearer'.symm.trans hbearer
          cases hok'.symm.trans hok
          exact congrArg Prod.fst hresolved
        · obtain ⟨err, herror, -⟩ := hrefused
          cases hbearer'.symm.trans hbearer
          cases herror.symm.trans hok
    · rw [if_neg (Option.some_ne_none validator)]
      rcases hcases with ⟨-, hresolved⟩ | ⟨token, -, ⟨ctx, -, hresolved⟩ | ⟨err, -, hresolved⟩⟩
      · exact ⟨_, congrArg Prod.snd hresolved, rfl, by
          rw [show resolved.1 = _ from congrArg Prod.fst hresolved]
          exact ⟨rfl, rfl, rfl, rfl⟩⟩
      · exact ⟨_, congrArg Prod.snd hresolved, rfl, by
          rw [show resolved.1 = _ from congrArg Prod.fst hresolved]
          exact ⟨rfl, rfl⟩⟩
      · exact ⟨_, congrArg Prod.snd hresolved, rfl, by
          rw [show resolved.1 = _ from congrArg Prod.fst hresolved]
          exact ⟨rfl, rfl, rfl, rfl⟩⟩

/-! ### A request of a tenant -/

/-- The text of a catalogue of one tenant. -/
def acmeCatalogue : String := "[[tenants]]\nid = \"acme\"\n"

/-- A key and a catalogue. -/
def acmeDisk : Disk where
  read path := if path = "/etc/key" then .ok [1, 2, 3] else .error "entity not found"
  loader :=
    { readToString := fun path =>
        if path = "/etc/tenants.toml" then .ok acmeCatalogue else .error "No such file or directory"
      tenants := fun text =>
        if text = acmeCatalogue then .ok [⟨"acme", none, none⟩] else .error "expected a table" }

def acmeEnv : AuthEnv := ⟨some "https://idp", some "kaleidoscope-query", some "/etc/key",
  some "/etc/tenants.toml"⟩

def acmeClaims : RawClaims :=
  ⟨some "https://idp", some "kaleidoscope-query", some 1750000000, some "acme", some "viewer"⟩

/-- One token verifies under the key. -/
def acmeDecode : Decode := fun key token =>
  if key = [1, 2, 3] ∧ token = "a.b.c" then .ok acmeClaims else .error .invalidSignature

def acmeValidator : Validator where
  issuer := "https://idp"
  audience := "kaleidoscope-query"
  key := [1, 2, 3]
  catalogue := ⟨Finmap.insert ⟨"acme"⟩ ⟨⟨"acme"⟩, none, none⟩ ∅⟩

/-- The bytes of a header with a scheme in lower case. -/
def acmeHeader : List UInt8 := "bearer  a.b.c".toList.map fun c => UInt8.ofNat c.toNat

/-- The tenant of the environment is another. -/
theorem acme_served : (resolveRequestTenantOrRefuse acmeDecode (some acmeValidator)
    (some acmeHeader) (resolveTenant (some "globex")) "the query" "query_range" 0).1 =
      .ok ⟨"acme"⟩ :=
  ((served_under_iff (resolveReadAuth_eq_ok_iff.mpr (.inr ⟨acmeValidator, rfl,
    { issuer := rfl
      audience := rfl
      key := ⟨"/etc/key", rfl, rfl⟩
      catalogue := ⟨"/etc/tenants.toml", rfl, rfl⟩ }⟩) : resolveReadAuth metricsAuthKeys acmeDisk
        acmeEnv = .ok (some acmeValidator)) (some acmeHeader) (some "globex") "the query"
          "query_range" 0).1 ⟨"acme"⟩).mpr (.inr ⟨"a.b.c", acmeClaims,
    { carried := ⟨"bearer  a.b.c", by decide +kernel,
        ⟨"bearer".toList, " a.b.c".toList, by decide, by decide, by decide⟩, by decide⟩
      decoded := ⟨"/etc/key", [1, 2, 3], rfl, rfl, rfl⟩
      issuer := rfl
      audience := rfl
      current := ⟨1750000000, rfl, by decide⟩
      tenant := rfl
      listed := ⟨"/etc/tenants.toml", [⟨"acme", none, none⟩], rfl, ⟨acmeCatalogue, rfl, rfl⟩,
        List.mem_singleton.mpr rfl⟩
      role := ⟨.viewer, rfl⟩ }⟩)

end Requests

end Kaleidoscope.QueryHttpCommon
