import Kaleidoscope.Library.HashMap

/-!
# Tenants and tokens

A validator lets a token through when its signature verifies under the key, it names the issuer and
the audience, it has not expired, and it names a tenant of the catalogue and a role. Each call
leaves one line in the audit log.
-/

namespace Kaleidoscope.Aegis

/-- Stable identifier for a tenant, kept apart from other strings. -/
structure TenantId where
  name : String
  deriving DecidableEq, Repr

/-! ## The catalogue -/

/-- `TenantRecord`. -/
structure TenantRecord where
  id : TenantId
  displayName : Option String
  notes : Option String
  deriving DecidableEq

/-- `TenantCatalogue`. -/
structure TenantCatalogue where
  byId : HashMap TenantId TenantRecord

/-- `CatalogueError`. -/
inductive CatalogueError where
  | read (path message : String)
  | parse (path message : String)
  | duplicateTenant (id : TenantId)
  deriving DecidableEq

/-- The text of a `CatalogueError`. -/
def CatalogueError.text : CatalogueError → String
  | .read path message => s!"cannot read tenant catalogue {path}: {message}"
  | .parse path message => s!"{path}: {message}"
  | .duplicateTenant id => s!"duplicate tenant id: {id.name}"

namespace TenantCatalogue

/-- One record of `from_records`, after those that were seen. -/
def add (loaded : TenantCatalogue × Finset TenantId) (record : TenantRecord) :
    Except CatalogueError (TenantCatalogue × Finset TenantId) :=
  if record.id ∈ loaded.2 then .error (.duplicateTenant record.id)
  else .ok (⟨loaded.1.byId.insert record.id record⟩, insert record.id loaded.2)

/-- `TenantCatalogue::from_records`. -/
def fromRecords (records : List TenantRecord) : Except CatalogueError TenantCatalogue :=
  (records.foldlM add (⟨∅⟩, ∅)).map Prod.fst

/-- `contains`. -/
def contains (catalogue : TenantCatalogue) (id : TenantId) : Bool := decide (id ∈ catalogue.byId)

/-- The ids that a catalogue loads are those that its records have, each once. -/
theorem foldlM_add {records : List TenantRecord} {loaded : TenantCatalogue × Finset TenantId}
    (hseen : ∀ id, id ∈ loaded.1.byId ↔ id ∈ loaded.2) :
    (∀ result, records.foldlM add loaded = .ok result →
      (∀ record ∈ records, record.id ∉ loaded.2) ∧ (records.map TenantRecord.id).Nodup ∧
        ∀ id, id ∈ result.1.byId ↔ id ∈ loaded.2 ∨ id ∈ records.map TenantRecord.id) ∧
    ((∀ record ∈ records, record.id ∉ loaded.2) → (records.map TenantRecord.id).Nodup →
      ∃ result, records.foldlM add loaded = .ok result) := by
  induction records generalizing loaded with
  | nil =>
    refine ⟨?_, fun _ _ => ⟨loaded, rfl⟩⟩
    rintro result ⟨⟩
    simp [hseen]
  | cons record records ih =>
    rw [List.foldlM_cons]
    by_cases hdup : record.id ∈ loaded.2
    · rw [add, if_pos hdup]
      refine ⟨?_, fun hfresh => absurd hdup (hfresh record List.mem_cons_self)⟩
      intro result hresult
      cases hresult
    · rw [add, if_neg hdup]
      have hseen' (id : TenantId) : id ∈ loaded.1.byId.insert record.id record ↔
          id ∈ insert record.id loaded.2 := by
        rw [Finmap.mem_insert, Finset.mem_insert, hseen]
      obtain ⟨hok, hexists⟩ :=
        @ih (⟨loaded.1.byId.insert record.id record⟩, insert record.id loaded.2) hseen'
      constructor
      · intro result hresult
        obtain ⟨hfresh, hnodup, hmem⟩ := hok result hresult
        simp only [Finset.mem_insert, not_or] at hfresh
        refine ⟨?_, ?_, fun id => ?_⟩
        · rintro other hother
          rcases List.mem_cons.mp hother with rfl | htail
          · exact hdup
          · exact (hfresh other htail).2
        · rw [List.map_cons, List.nodup_cons]
          refine ⟨?_, hnodup⟩
          rw [List.mem_map]
          rintro ⟨other, hother, hsame⟩
          exact (hfresh other hother).1 hsame
        · rw [hmem, Finset.mem_insert, List.map_cons, List.mem_cons]
          tauto
      · intro hfresh hnodup
        rw [List.map_cons, List.nodup_cons] at hnodup
        refine hexists (fun other hother => ?_) hnodup.2
        rw [Finset.mem_insert, not_or]
        exact ⟨fun hsame => hnodup.1 (List.mem_map.mpr ⟨other, hother, hsame⟩),
          hfresh other (List.mem_cons_of_mem record hother)⟩

/-- A catalogue is made of records whose ids differ, and has those ids. -/
theorem fromRecords_spec (records : List TenantRecord) :
    ((∃ catalogue, fromRecords records = .ok catalogue) ↔
      (records.map TenantRecord.id).Nodup) ∧
    ∀ catalogue, fromRecords records = .ok catalogue →
      ∀ id, catalogue.contains id = true ↔ id ∈ records.map TenantRecord.id := by
  obtain ⟨hok, hexists⟩ := @foldlM_add records (⟨∅⟩, ∅)
    fun id => iff_of_false (Finmap.notMem_empty) (Finset.notMem_empty id)
  have hresult {catalogue : TenantCatalogue} (h : fromRecords records = .ok catalogue) :
      ∃ result, records.foldlM add (⟨∅⟩, ∅) = .ok result ∧ result.1 = catalogue := by
    rw [fromRecords] at h
    cases hfold : records.foldlM add (⟨∅⟩, ∅) with
    | error e =>
      rw [hfold] at h
      cases h
    | ok result =>
      rw [hfold] at h
      cases h
      exact ⟨result, rfl, rfl⟩
  refine ⟨⟨?_, ?_⟩, ?_⟩
  · rintro ⟨catalogue, h⟩
    obtain ⟨result, hfold, -⟩ := hresult h
    exact (hok result hfold).2.1
  · intro hnodup
    obtain ⟨result, hfold⟩ := hexists (by simp) hnodup
    exact ⟨result.1, by rw [fromRecords, hfold]; rfl⟩
  · intro catalogue h id
    obtain ⟨result, hfold, rfl⟩ := hresult h
    rw [contains, decide_eq_true_iff, (hok result hfold).2.2]
    simp

end TenantCatalogue

/-- `RawTenant`. -/
structure RawTenant where
  id : String
  displayName : Option String
  notes : Option String
  deriving DecidableEq

/-- The record of a table. -/
def RawTenant.record (raw : RawTenant) : TenantRecord := ⟨⟨raw.id⟩, raw.displayName, raw.notes⟩

/-- What a catalogue is loaded with: `read_to_string`, and the tables of a TOML text. -/
structure Loader where
  readToString : String → Except String String
  tenants : String → Except String (List RawTenant)

/-- `load_catalogue`. -/
def loadCatalogue (loader : Loader) (path : String) : Except CatalogueError TenantCatalogue :=
  match loader.readToString path with
  | .error message => .error (.read path message)
  | .ok text =>
    match loader.tenants text with
    | .error message => .error (.parse path message)
    | .ok tenants => TenantCatalogue.fromRecords (tenants.map RawTenant.record)

/-- The tables that a file has. -/
def Loader.Tables (loader : Loader) (path : String) (tenants : List RawTenant) : Prop :=
  ∃ text, loader.readToString path = .ok text ∧ loader.tenants text = .ok tenants

/-- A catalogue loads from a file whose tables have different ids, and has those. -/
theorem loadCatalogue_spec (loader : Loader) (path : String) :
    ((∃ catalogue, loadCatalogue loader path = .ok catalogue) ↔
      ∃ tenants, loader.Tables path tenants ∧ (tenants.map RawTenant.id).Nodup) ∧
    ∀ catalogue, loadCatalogue loader path = .ok catalogue → ∀ id,
      catalogue.contains id = true ↔
        ∃ tenants, loader.Tables path tenants ∧ id.name ∈ tenants.map RawTenant.id := by
  have hids (tenants : List RawTenant) :
      (tenants.map RawTenant.record).map TenantRecord.id =
        (tenants.map RawTenant.id).map TenantId.mk := by
    simp [RawTenant.record]
  cases htext : loader.readToString path with
  | error message => simp [loadCatalogue, htext, Loader.Tables]
  | ok text =>
    cases htables : loader.tenants text with
    | error message => simp [loadCatalogue, htext, htables, Loader.Tables]
    | ok tenants =>
      have hload : loadCatalogue loader path =
          TenantCatalogue.fromRecords (tenants.map RawTenant.record) := by
        rw [loadCatalogue, htext]
        simp only [htables]
      have htables' (tenants' : List RawTenant) :
          loader.Tables path tenants' ↔ tenants' = tenants := by
        rw [Loader.Tables, htext]
        constructor
        · rintro ⟨_, ⟨⟩, hread⟩
          cases htables.symm.trans hread
          rfl
        · rintro rfl
          exact ⟨text, rfl, htables⟩
      obtain ⟨hexists, hcontains⟩ :=
        TenantCatalogue.fromRecords_spec (tenants.map RawTenant.record)
      rw [hids] at hexists hcontains
      rw [hload]
      simp only [htables', exists_eq_left]
      refine ⟨hexists.trans (List.nodup_map_iff fun a b h => congrArg TenantId.name h), ?_⟩
      intro catalogue hcatalogue id
      rw [hcontains catalogue hcatalogue id, List.mem_map]
      constructor
      · rintro ⟨name, hname, rfl⟩
        exact hname
      · exact fun hname => ⟨id.name, hname, rfl⟩

/-! ## The validator -/

/-- `Role`. -/
inductive Role where
  | viewer
  | operator
  deriving DecidableEq, Repr

/-- `Role::as_str`. -/
def Role.asStr : Role → String
  | .viewer => "viewer"
  | .operator => "operator"

/-- `TenantContext`. -/
structure TenantContext where
  tenantId : TenantId
  role : Role
  deriving DecidableEq, Repr

/-- `ValidationError`. -/
inductive ValidationError where
  | invalidSignature
  | expired
  | wrongIssuer
  | wrongAudience
  | missingClaim (name : String)
  | unknownTenant
  | unknownRole
  | malformed
  deriving DecidableEq, Repr

/-- `reason`. -/
def ValidationError.reason : ValidationError → String
  | .invalidSignature => "invalid_signature"
  | .expired => "expired"
  | .wrongIssuer => "wrong_issuer"
  | .wrongAudience => "wrong_audience"
  | .missingClaim _ => "missing_claim"
  | .unknownTenant => "unknown_tenant"
  | .unknownRole => "unknown_role"
  | .malformed => "malformed"

/-- `RawClaims`. -/
structure RawClaims where
  iss : Option String
  aud : Option String
  exp : Option Int
  tenantId : Option String
  kaleidoscopeRole : Option String
  deriving DecidableEq, Repr

/-- The kinds of errors of a decoder that are told apart. -/
inductive JwtError where
  | invalidSignature
  | invalidToken
  | invalidKeyFormat
  | base64
  | json
  | utf8
  | other
  deriving DecidableEq, Repr

/-- `map_err`. -/
def mapErr : JwtError → ValidationError
  | .invalidSignature => .invalidSignature
  | .invalidToken | .invalidKeyFormat | .base64 | .json | .utf8 => .malformed
  | .other => .malformed

/-- `decode`, of tokens whose signature verifies under a key and of no other. -/
abbrev Decode := List UInt8 → String → Except JwtError RawClaims

/-- `ValidatorConfig`, and a `Validator` built from it. -/
structure Validator where
  issuer : String
  audience : String
  key : List UInt8
  catalogue : TenantCatalogue

/-- The seconds of a time in nanoseconds, as `i64`; none before the epoch. -/
def nowSecs (now : Int) : Int := if now < 0 then 0 else (now / 1000000000).bmod (2 ^ 64)

variable (decode : Decode)

/-- `validate_inner`. -/
def Validator.validateInner (validator : Validator) (token : String) (now : Int) :
    Except ValidationError TenantContext :=
  match decode validator.key token with
  | .error err => .error (mapErr err)
  | .ok claims =>
    if claims.iss ≠ some validator.issuer then .error .wrongIssuer
    else if claims.aud ≠ some validator.audience then .error .wrongAudience
    else
      match claims.exp with
      | none => .error (.missingClaim "exp")
      | some exp =>
        if exp ≤ nowSecs now then .error .expired
        else
          match claims.tenantId with
          | none => .error (.missingClaim "tenant_id")
          | some tenant =>
            if !validator.catalogue.contains ⟨tenant⟩ then .error .unknownTenant
            else
              match claims.kaleidoscopeRole with
              | none => .error (.missingClaim "kaleidoscope_role")
              | some role =>
                if role = "viewer" then .ok ⟨⟨tenant⟩, .viewer⟩
                else if role = "operator" then .ok ⟨⟨tenant⟩, .operator⟩
                else .error .unknownRole

/-- A line of the audit log. -/
structure Decision where
  message : String
  tenantId : String
  role : String
  decision : String
  subject : String
  reason : String
  transport : Option String
  deriving DecidableEq, Repr

/-- The line of a result of a validator. -/
def Decision.of (subject : String) : Except ValidationError TenantContext → Decision
  | .ok ctx =>
    ⟨"aegis authz decision", ctx.tenantId.name, ctx.role.asStr, "allow", subject, "allow", none⟩
  | .error err => ⟨"aegis authz decision", "", "", "deny", subject, err.reason, none⟩

/-- `validate_with_subject`, with the line it logs. -/
def Validator.validateWithSubject (validator : Validator) (token : String) (now : Int)
    (subject : String) : Except ValidationError TenantContext × Decision :=
  let result := validator.validateInner decode token now
  (result, .of subject result)

/-- A token speaks for a tenant in a role. -/
structure Validator.Vouches (validator : Validator) (token : String) (now : Int)
    (ctx : TenantContext) (claims : RawClaims) : Prop where
  decoded : decode validator.key token = .ok claims
  issuer : claims.iss = some validator.issuer
  audience : claims.aud = some validator.audience
  current : ∃ exp, claims.exp = some exp ∧ nowSecs now < exp
  tenant : claims.tenantId = some ctx.tenantId.name
  listed : validator.catalogue.contains ctx.tenantId = true
  role : claims.kaleidoscopeRole = some ctx.role.asStr

variable {decode}

theorem Validator.validateInner_eq_ok_iff {validator : Validator} {token : String} {now : Int}
    {ctx : TenantContext} : validator.validateInner decode token now = .ok ctx ↔
      ∃ claims, validator.Vouches decode token now ctx claims := by
  constructor
  · intro h
    rw [validateInner] at h
    split at h
    · cases h
    next claims hdecoded =>
      split_ifs at h with hissuer haudience
      split at h
      · cases h
      next exp hexp =>
        split_ifs at h with hexpired
        split at h
        · cases h
        next tenant htenant =>
          split_ifs at h with hlisted
          split at h
          · cases h
          next role hrole =>
            have hvouches {named : Role} (hname : role = named.asStr) :
                validator.Vouches decode token now ⟨⟨tenant⟩, named⟩ claims :=
              { decoded := hdecoded
                issuer := not_not.mp hissuer
                audience := not_not.mp haudience
                current := ⟨exp, hexp, not_le.mp hexpired⟩
                tenant := htenant
                listed := by simpa using hlisted
                role := hname ▸ hrole }
            split_ifs at h with hviewer hoperator
            · cases h
              exact ⟨claims, hvouches hviewer⟩
            · cases h
              exact ⟨claims, hvouches hoperator⟩
  · rintro ⟨claims, h⟩
    obtain ⟨exp, hexp, hcurrent⟩ := h.current
    obtain ⟨⟨tenant⟩, role⟩ := ctx
    simp only [validateInner, h.decoded, h.issuer, h.audience, hexp, not_le.mpr hcurrent, h.tenant,
      h.listed, h.role]
    cases role <;> simp [Role.asStr]

end Kaleidoscope.Aegis
