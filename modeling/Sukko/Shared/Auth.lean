import Sukko.Lib.GoString
/-
# Token validation

**JWT boundary**: `JWTLib` is golang-jwt: decoding a token, checking its signature against a key and checking the registered
time claims. Nothing is assumed of it.
-/

namespace Sukko.Auth

structure Claims where
  id : GoStr
  subject : GoStr
  issuer : GoStr
  issuedAt : Option Int
  expiresAt : Option Int
  tenantID : GoStr
  attributes : List (GoStr × GoStr)
  roles : List GoStr
  groups : List GoStr
  scopes : List GoStr
  resolvedTenantUUID : GoStr
deriving DecidableEq

def Claims.matchesTenantUUID (c : Claims) (tenantUUID : GoStr) : Bool := c.resolvedTenantUUID == tenantUUID

structure KeyInfo where
  keyID : GoStr
  tenantID : GoStr
  algorithm : GoStr
  publicKeyPEM : GoStr
  isActive : Bool
  expiresAt : Option Time
  revokedAt : Option Time
deriving DecidableEq

inductive KeyErr
  | notFound
  | revoked
  | expired
deriving DecidableEq

/-! ## The JWT library -/

structure Token where
  kid : Option GoStr
  alg : Option GoStr
  claims : Claims
deriving DecidableEq

inductive ClaimsErr
  | expired
  | other
deriving DecidableEq

structure JWTLib where
  parse : GoStr → Option Token
  verify : GoStr → KeyInfo → Bool
  check : Time → Claims → Option ClaimsErr

/-! ## Validation -/

inductive Required
  | tenantID
  | iss
  | sub
  | exp
  | iat
  | jti
deriving DecidableEq

structure ValidateOpts where
  getKey : GoStr → Except KeyErr KeyInfo
  allowedAlgorithms : List GoStr
  allowedIssuers : List GoStr
  maxLifetime : Time
  requireClaims : List Required
  tenantResolver : Option (GoStr → Option GoStr)
  disableTenantBinding : Bool

inductive AuthErr
  | missingToken
  | invalidToken
  | tokenExpired
  | tenantNotResolvable
  | tenantMismatch
deriving DecidableEq

def ValidateOpts.resolvedAlgorithms (opts : ValidateOpts) : List GoStr :=
  if opts.allowedAlgorithms = [] then ["ES256", "RS256", "EdDSA"].map str else opts.allowedAlgorithms

def issuerAllowed (lib : JWTLib) (opts : ValidateOpts) (tok : GoStr) : Bool :=
  opts.allowedIssuers.isEmpty ||
    (lib.parse tok).any fun t => t.claims.issuer ≠ [] && opts.allowedIssuers.contains t.claims.issuer

def keyFunc (opts : ValidateOpts) (t : Token) : Option KeyInfo :=
  match t.kid, t.alg with
  | some kid, some alg =>
    if kid = [] ∨ alg ∉ opts.resolvedAlgorithms then none
    else
      match opts.getKey kid with
      | .error _ => none
      | .ok key => if key.algorithm ≠ alg then none else some key
  | _, _ => none

def parseWithClaims (lib : JWTLib) (opts : ValidateOpts) (now : Time) (tok : GoStr) :
    Except AuthErr (KeyInfo × Claims) :=
  match lib.parse tok with
  | none => .error .invalidToken
  | some t =>
    match keyFunc opts t with
    | none => .error .invalidToken
    | some key =>
      if !lib.verify tok key then .error .invalidToken
      else
        match lib.check now t.claims with
        | some .expired => .error .tokenExpired
        | some .other => .error .invalidToken
        | none => .ok (key, t.claims)

def lifetimeOK (opts : ValidateOpts) (c : Claims) : Bool :=
  opts.maxLifetime ≤ 0 ||
    match c.issuedAt, c.expiresAt with
    | some iat, some exp => (exp - iat) * 1000000000 ≤ opts.maxLifetime
    | _, _ => false

def Claims.has (c : Claims) : Required → Bool
  | .tenantID => c.tenantID ≠ []
  | .iss => c.issuer ≠ []
  | .sub => c.subject ≠ []
  | .exp => c.expiresAt.isSome
  | .iat => c.issuedAt.isSome
  | .jti => c.id ≠ []

def bindTenant (opts : ValidateOpts) (key : KeyInfo) (c : Claims) : Except AuthErr Claims :=
  match opts.tenantResolver with
  | none => .error .invalidToken
  | some resolve =>
    if key.tenantID = [] then .error .invalidToken
    else
      match resolve c.tenantID with
      | none => .error .tenantNotResolvable
      | some claimUUID =>
        if claimUUID = [] ∨ claimUUID ≠ key.tenantID then .error .tenantMismatch
        else .ok { c with resolvedTenantUUID := claimUUID }

/-- See `shared/auth/jwt_core.go:61`. -/
def validateJWT (lib : JWTLib) (opts : ValidateOpts) (now : Time) (tok : GoStr) : Except AuthErr Claims :=
  if tok = [] then .error .missingToken
  else if !issuerAllowed lib opts tok then .error .invalidToken
  else
    match parseWithClaims lib opts now tok with
    | .error e => .error e
    | .ok (key, claims) =>
      if !lifetimeOK opts claims then .error .invalidToken
      else if !opts.requireClaims.all claims.has then .error .invalidToken
      else if opts.disableTenantBinding ∨ claims.tenantID = [] then .ok claims
      else bindTenant opts key claims

def signingKey (lib : JWTLib) (opts : ValidateOpts) (tok : GoStr) : Option KeyInfo :=
  (lib.parse tok).bind (keyFunc opts)

/-! ## What acceptance means -/

theorem parseWithClaims_ok {lib : JWTLib} {opts : ValidateOpts} {now : Time} {tok : GoStr} {key : KeyInfo} {c : Claims}
    (h : parseWithClaims lib opts now tok = .ok (key, c)) :
    signingKey lib opts tok = some key ∧ lib.verify tok key = true ∧ lib.check now c = none := by
  unfold parseWithClaims at h
  unfold signingKey
  cases hp : lib.parse tok with
  | none => simp [hp] at h
  | some t =>
    simp only [hp] at h
    cases hk : keyFunc opts t with
    | none => simp [hk] at h
    | some key' =>
      simp only [hk] at h
      cases hv : lib.verify tok key' with
      | false => simp [hv] at h
      | true =>
        simp only [hv, Bool.not_true, Bool.false_eq_true, if_false] at h
        split at h <;> cases h
        exact ⟨hk, hv, ‹_›⟩

theorem bindTenant_ok {opts : ValidateOpts} {key : KeyInfo} {c c' : Claims} (h : bindTenant opts key c = .ok c') :
    c' = { c with resolvedTenantUUID := key.tenantID } ∧
      ∃ resolve, opts.tenantResolver = some resolve ∧ resolve c.tenantID = some key.tenantID := by
  unfold bindTenant at h
  split at h
  · cases h
  rename_i resolve hr
  split at h
  · cases h
  split at h
  · cases h
  rename_i uuid hu
  split at h
  · cases h
  rename_i hne
  cases h
  have heq : uuid = key.tenantID := not_not.1 (not_or.1 hne).2
  exact ⟨by rw [heq], resolve, hr, heq ▸ hu⟩

/-- **An accepted token is bound to its key's tenant.** -/
theorem validateJWT_ok {lib : JWTLib} {opts : ValidateOpts} {now : Time} {tok : GoStr} {c : Claims}
    (h : validateJWT lib opts now tok = .ok c) :
    ∃ key, signingKey lib opts tok = some key ∧ lib.verify tok key = true ∧ opts.requireClaims.all c.has = true ∧
      (opts.disableTenantBinding = false → c.tenantID ≠ [] → c.resolvedTenantUUID = key.tenantID ∧
          ∃ resolve, opts.tenantResolver = some resolve ∧ resolve c.tenantID = some key.tenantID) := by
  unfold validateJWT at h
  split at h
  · cases h
  split at h
  · cases h
  split at h
  · cases h
  rename_i key claims hp
  obtain ⟨hk, hv, -⟩ := parseWithClaims_ok hp
  refine ⟨key, hk, hv, ?_⟩
  split at h
  · cases h
  split at h
  · cases h
  rename_i hh
  have hcl : opts.requireClaims.all claims.has = true := by simpa using hh
  split at h
  · rename_i hs
    cases h
    refine ⟨hcl, fun hb ht => ?_⟩
    rcases hs with hs | hs
    · rw [hb] at hs; cases hs
    · exact absurd hs ht
  · obtain ⟨hc, hr⟩ := bindTenant_ok h
    subst hc
    exact ⟨hcl, fun _ _ => ⟨rfl, hr⟩⟩

/-! ## The validator of the gateway -/

/-- Models `MultiTenantValidator` (`shared/auth/jwt_multitenant.go:40`). -/
structure Validator where
  getKey : GoStr → Except KeyErr KeyInfo
  requireTenantID : Bool
  allowedAlgorithms : List GoStr
  allowedIssuers : List GoStr
  tenantResolver : GoStr → Option GoStr

def Validator.opts (v : Validator) : ValidateOpts where
  getKey := v.getKey
  allowedAlgorithms := v.allowedAlgorithms
  allowedIssuers := v.allowedIssuers
  maxLifetime := 0
  requireClaims := if v.requireTenantID then [.tenantID] else []
  tenantResolver := some v.tenantResolver
  disableTenantBinding := false

def Validator.validateToken (lib : JWTLib) (v : Validator) (now : Time) (tok : GoStr) : Except AuthErr Claims :=
  validateJWT lib v.opts now tok

end Sukko.Auth
