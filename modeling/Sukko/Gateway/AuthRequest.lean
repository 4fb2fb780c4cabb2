import Sukko.Gateway.ChannelFilter
import Sukko.ProvApi.KeyRegistry
/-
# Connecting and refreshing

Connect and refresh agree on the validator and on the tenant, but three checks of the connect path are missing from the refresh
path: the `jti`, the revocation, and the connection's API key (`refresh_admitted_iff`).
-/

namespace Sukko.Gateway
open ProvApi Auth Replica

/-! ## Revocations -/

structure JTIEntry where
  tenantID : GoStr
  expiresAt : Int
deriving DecidableEq

structure SubEntry where
  revokedAt : Int
  expiresAt : Int
deriving DecidableEq

structure RevocationSnapshot where
  jtiRevocations : Map GoStr JTIEntry
  subRevocations : Map GoStr SubEntry

def subKey (tenantID sub : GoStr) : GoStr := tenantID ++ str ":" ++ sub

/-- See `shared/provapi/revocation_stream.go:162`. -/
def isRevoked (snap : RevocationSnapshot) (jti sub tenantID : GoStr) (iat : Int) : Bool :=
  (jti ≠ [] && (snap.jtiRevocations jti).any (·.tenantID == tenantID)) ||
    (sub ≠ [] && (snap.subRevocations (subKey tenantID sub)).any (iat < ·.revokedAt))

/-! ## The gateway -/

structure Env where
  lib : JWTLib
  validator : Option Validator
  apiKeys : APIKeyRegistry
  revocations : Option RevocationSnapshot
  provider : Option Provider

inductive RequestErr
  | noCredentials
  | invalidAPIKey
  | invalidToken
  | tenantMismatch
  | tenantUnavailable
  | missingJTI
  | tokenRevoked
  | nilDereference
deriving DecidableEq

inductive AuthMethod
  | apiKey
  | jwt
  | jwtAndAPIKey
deriving DecidableEq

structure AuthResult where
  claims : Option Claims
  principal : GoStr
  tenantSlug : GoStr
  tenantUUID : GoStr
  apiKeyOnly : Bool
  apiKeyTenantID : GoStr
  authMethod : AuthMethod
  apiKeyID : GoStr
  userID : GoStr
deriving DecidableEq

/-- See `gateway/auth_request.go:89`. -/
def resolveAPIKeyTenantSlug (gw : Env) (tenantUUID : GoStr) : Except RequestErr GoStr :=
  match gw.provider with
  | none => .error .tenantUnavailable
  | some p =>
    match p.resolveTenantSlug tenantUUID with
    | none => if p.tenantUUIDsPresent then .error .tenantMismatch else .error .tenantUnavailable
    | some slug => if slug = [] then .error .tenantUnavailable else .ok slug

/-- The checks both JWT branches end with. The revocation check reads the issue time through a pointer that is nil when the claim
is absent. -/
def admitClaims (gw : Env) (c : Claims) : Except RequestErr Unit :=
  if c.id = [] then .error .missingJTI
  else
    match gw.revocations with
    | none => .ok ()
    | some snap =>
      match c.issuedAt with
      | none => .error .nilDereference
      | some iat => if isRevoked snap c.id c.subject c.tenantID iat then .error .tokenRevoked else .ok ()

/-- Part of `authenticateRequest` (`gateway/auth_request.go:128`). -/
def authenticateAPIKey (gw : Env) (anon apiKey : GoStr) : Except RequestErr AuthResult :=
  match gw.apiKeys.lookup apiKey with
  | none => .error .invalidAPIKey
  | some info =>
    match resolveAPIKeyTenantSlug gw info.tenantID with
    | .error e => .error e
    | .ok slug =>
      .ok { claims := none, principal := str "anon:" ++ anon, tenantSlug := slug, tenantUUID := info.tenantID
            apiKeyOnly := true, apiKeyTenantID := info.tenantID, authMethod := .apiKey
            apiKeyID := info.keyID, userID := [] }

def authenticateJWT (gw : Env) (now : Time) (token : GoStr) : Except RequestErr AuthResult :=
  match gw.validator with
  | none => .error .nilDereference
  | some v =>
    match v.validateToken gw.lib now token with
    | .error .tenantMismatch => .error .tenantMismatch
    | .error _ => .error .invalidToken
    | .ok c =>
      match admitClaims gw c with
      | .error e => .error e
      | .ok () =>
        .ok { claims := some c, principal := c.subject, tenantSlug := c.tenantID
              tenantUUID := c.resolvedTenantUUID, apiKeyOnly := false, apiKeyTenantID := []
              authMethod := .jwt, apiKeyID := [], userID := c.subject }

def authenticateBoth (gw : Env) (now : Time) (token apiKey : GoStr) : Except RequestErr AuthResult :=
  match gw.apiKeys.lookup apiKey with
  | none => .error .invalidAPIKey
  | some info =>
    match gw.validator with
    | none => .error .nilDereference
    | some v =>
      match v.validateToken gw.lib now token with
      | .error _ => .error .invalidToken
      | .ok c =>
        if !c.matchesTenantUUID info.tenantID then .error .tenantMismatch
        else
          match admitClaims gw c with
          | .error e => .error e
          | .ok () =>
            .ok { claims := some c, principal := c.subject, tenantSlug := c.tenantID
                  tenantUUID := c.resolvedTenantUUID, apiKeyOnly := false, apiKeyTenantID := info.tenantID
                  authMethod := .jwtAndAPIKey, apiKeyID := info.keyID, userID := c.subject }

/-- See `gateway/auth_request.go:127`. -/
def authenticateRequest (gw : Env) (now : Time) (anon token apiKey : GoStr) : Except RequestErr AuthResult :=
  if token = [] ∧ apiKey = [] then .error .noCredentials
  else if token = [] then authenticateAPIKey gw anon apiKey
  else if apiKey = [] then authenticateJWT gw now token
  else authenticateBoth gw now token apiKey

/-! ## Connections -/

structure Proxy where
  claims : Option Claims
  tenantID : GoStr
  apiKeyOnly : Bool
  apiKeyTenantID : GoStr
  subscribedChannels : List GoStr
  maxPublishSize : Int
  maxFrameSize : Int
deriving DecidableEq

def openProxy (res : AuthResult) (maxPublishSize maxFrameSize : Int) : Proxy where
  claims := res.claims
  tenantID := res.tenantSlug
  apiKeyOnly := res.apiKeyOnly
  apiKeyTenantID := res.apiKeyTenantID
  subscribedChannels := []
  maxPublishSize := maxPublishSize
  maxFrameSize := maxFrameSize

def Env.filterSubscribe (gw : Env) (p : Proxy) (channels : List GoStr) (claims : Option Claims) : List GoStr :=
  filterSubscribeChannels gw.provider channels p.tenantID claims

def Env.canPublish (gw : Env) (p : Proxy) (claims : Option Claims) (channel : GoStr) : Bool :=
  checkPublishAllowed gw.provider p.tenantID claims channel

/-! ## Refreshing -/

inductive AuthCode
  | invalidToken
  | tokenExpired
  | tenantMismatch
  | rateLimited
  | notAvailable
deriving DecidableEq

inductive Refresh
  | denied (code : AuthCode)
  | swapped (p : Proxy) (revoked : List GoStr) (exp : Int)
deriving DecidableEq

def refreshCode : AuthErr → AuthCode
  | .tokenExpired => .tokenExpired
  | .tenantMismatch => .tenantMismatch
  | _ => .invalidToken

def revokedChannels (gw : Env) (p : Proxy) (claims : Claims) : List GoStr :=
  let allowed := gw.filterSubscribe p p.subscribedChannels (some claims)
  p.subscribedChannels.filter (· ∉ allowed)

def swapClaims (gw : Env) (p : Proxy) (c : Claims) : Refresh :=
  let revoked := revokedChannels gw p c
  .swapped { p with claims := some c, apiKeyOnly := false
                    subscribedChannels := p.subscribedChannels.filter (· ∉ revoked) }
    revoked (c.expiresAt.getD 0)

/-- `interceptAuthRefresh`. `allow` is the answer of the limiter and `token` the parsed payload (`none` if it
does not parse). -/
def interceptAuthRefresh (gw : Env) (now : Time) (allow : Bool) (token : Option GoStr) (p : Proxy) : Refresh :=
  if !allow then .denied .rateLimited
  else
    match token with
    | none | some [] => .denied .invalidToken
    | some token =>
      match gw.validator with
      | none => .denied .notAvailable
      | some v =>
        match v.validateToken gw.lib now token with
        | .error e => .denied (refreshCode e)
        | .ok c =>
          if c.tenantID ≠ p.tenantID then .denied .tenantMismatch
          else if p.apiKeyTenantID ≠ [] ∧ c.matchesTenantUUID p.apiKeyTenantID = false then .denied .tenantMismatch
          else swapClaims gw p c

/-! ## An accepted token was admitted -/

section Admitted
variable {gw : Env} {now : Time} {anon tok apiKey : GoStr} {res : AuthResult} {c : Claims}

theorem authenticateJWT_claims (h : authenticateJWT gw now tok = .ok res) (hc : res.claims = some c) :
    admitClaims gw c = .ok () ∧ res.tenantSlug = c.tenantID ∧ res.apiKeyOnly = false := by
  unfold authenticateJWT at h
  split at h
  · cases h
  split at h
  · cases h
  · cases h
  split at h
  · cases h
  rename_i ha
  cases h
  cases hc
  exact ⟨ha, rfl, rfl⟩

theorem authenticateBoth_claims (h : authenticateBoth gw now tok apiKey = .ok res) (hc : res.claims = some c) :
    admitClaims gw c = .ok () ∧ res.tenantSlug = c.tenantID ∧ res.apiKeyOnly = false := by
  unfold authenticateBoth at h
  split at h
  · cases h
  split at h
  · cases h
  split at h
  · cases h
  split at h
  · cases h
  split at h
  · cases h
  rename_i ha
  cases h
  cases hc
  exact ⟨ha, rfl, rfl⟩

/-- **An accepted token was admitted**, its tenant is the connection's, and the connection is not an API key's
alone. -/
theorem authenticateRequest_claims (h : authenticateRequest gw now anon tok apiKey = .ok res) (hc : res.claims = some c) :
    admitClaims gw c = .ok () ∧ res.tenantSlug = c.tenantID ∧ res.apiKeyOnly = false := by
  unfold authenticateRequest at h
  split at h
  · cases h
  split at h
  · unfold authenticateAPIKey at h
    split at h
    · cases h
    split at h <;> cases h
    cases hc
  split at h
  · exact authenticateJWT_claims h hc
  · exact authenticateBoth_claims h hc

end Admitted

/-! ## What a refresh admits -/

/-- The checks of the connect path that a refresh does not make. -/
structure Admissible (gw : Env) (apiKey : GoStr) (c : Claims) : Prop where
  jti : c.id ≠ []
  revoked : ∀ snap, gw.revocations = some snap →
    ∃ iat, c.issuedAt = some iat ∧ isRevoked snap c.id c.subject c.tenantID iat = false
  apiKey : apiKey ≠ [] → ∃ info, gw.apiKeys.lookup apiKey = some info ∧ c.matchesTenantUUID info.tenantID = true

variable {gw : Env} {c : Claims}

theorem admitClaims_ok_iff :
    admitClaims gw c = .ok () ↔ c.id ≠ [] ∧ ∀ snap, gw.revocations = some snap →
      ∃ iat, c.issuedAt = some iat ∧ isRevoked snap c.id c.subject c.tenantID iat = false := by
  unfold admitClaims
  by_cases hid : c.id = []
  · simp [hid]
  cases hrv : gw.revocations with
  | none => simp [hid]
  | some snap =>
    cases hi : c.issuedAt with
    | none => simp [hid]
    | some iat =>
      by_cases hr : isRevoked snap c.id c.subject c.tenantID iat = true <;> simp [hid, hr]

theorem admitClaims_nilDereference_iff : admitClaims gw c = .error .nilDereference ↔
    c.id ≠ [] ∧ gw.revocations ≠ none ∧ c.issuedAt = none := by
  unfold admitClaims
  by_cases hid : c.id = []
  · simp [hid]
  cases gw.revocations with
  | none => simp [hid]
  | some snap =>
    cases hi : c.issuedAt with
    | none => simp [hid]
    | some iat =>
      by_cases hr : isRevoked snap c.id c.subject c.tenantID iat = true <;> simp [hid, hr]

theorem interceptAuthRefresh_swapped {now : Time} {allow : Bool} {token : Option GoStr} {p p' : Proxy}
    {revoked : List GoStr} {exp : Int} (h : interceptAuthRefresh gw now allow token p = .swapped p' revoked exp) :
    ∃ tok v c, token = some tok ∧ tok ≠ [] ∧ gw.validator = some v ∧ v.validateToken gw.lib now tok = .ok c ∧
      c.tenantID = p.tenantID ∧ p'.claims = some c ∧ p'.tenantID = p.tenantID := by
  unfold interceptAuthRefresh at h
  split at h
  · cases h
  split at h
  · cases h
  · cases h
  rename_i tok hne
  split at h
  · cases h
  rename_i v hv
  split at h
  · cases h
  rename_i c hc
  split at h
  · cases h
  rename_i ht
  split at h
  · cases h
  · cases h
    exact ⟨tok, v, c, rfl, fun h0 => hne h0, hv, hc, not_not.1 ht, rfl, rfl⟩

theorem authenticateRequest_ok_iff {now : Time} {anon tok apiKey : GoStr} {v : Validator}
    (ht : tok ≠ []) (hv : gw.validator = some v) (hc : v.validateToken gw.lib now tok = .ok c) :
    (∃ res, authenticateRequest gw now anon tok apiKey = .ok res ∧ res.claims = some c ∧ res.tenantSlug = c.tenantID) ↔
      Admissible gw apiKey c := by
  have ha : Admissible gw apiKey c ↔ admitClaims gw c = .ok () ∧
      (apiKey ≠ [] → ∃ info, gw.apiKeys.lookup apiKey = some info ∧ c.matchesTenantUUID info.tenantID = true) := by
    rw [admitClaims_ok_iff]
    exact ⟨fun h => ⟨⟨h.jti, h.revoked⟩, h.apiKey⟩, fun h => ⟨h.1.1, h.1.2, h.2⟩⟩
  rw [ha]
  unfold authenticateRequest
  by_cases hk : apiKey = []
  · simp only [ht, hk, false_and, if_false, if_true, authenticateJWT, hv, hc]
    cases hok : admitClaims gw c with
    | error e | ok u => simp
  · simp only [ht, hk, false_and, if_false, authenticateBoth, hv, hc]
    cases hl : gw.apiKeys.lookup apiKey with
    | none => simp [hk]
    | some info =>
      by_cases hm : c.matchesTenantUUID info.tenantID = true
      · cases hok : admitClaims gw c with
        | error e | ok u => simp [hm]
      · simp [hm, hk]

/-- **An accepted token and its issue time**: a token without one is not asked for it iff an earlier check ends the call. -/
theorem accepted_no_nilDereference_iff (gw : Env) (now : Time) (anon tok apiKey : GoStr) (v : Validator) (c : Claims)
    (hv : gw.validator = some v) (hc : v.validateToken gw.lib now tok = .ok c) :
    authenticateRequest gw now anon tok apiKey ≠ .error .nilDereference ↔
      c.issuedAt ≠ none ∨ c.id = [] ∨ gw.revocations = none ∨
        apiKey ≠ [] ∧ ∀ info, gw.apiKeys.lookup apiKey = some info → c.matchesTenantUUID info.tenantID = false := by
  have ht : tok ≠ [] := by
    rintro rfl
    cases hc
  have hadmit : admitClaims gw c ≠ .error .nilDereference ↔ c.issuedAt ≠ none ∨ c.id = [] ∨ gw.revocations = none := by
    rw [Ne, admitClaims_nilDereference_iff]
    tauto
  unfold authenticateRequest
  by_cases hk : apiKey = []
  · simp only [ht, hk, false_and, if_false, if_true, authenticateJWT, hv, hc, ne_eq, not_true_eq_false, or_false]
    rw [← ne_eq, ← hadmit]
    cases admitClaims gw c with
    | error e | ok u => simp
  · simp only [ht, hk, false_and, if_false, authenticateBoth, hv, hc]
    cases hl : gw.apiKeys.lookup apiKey with
    | none => simp [hk]
    | some info =>
      by_cases hm : c.matchesTenantUUID info.tenantID = true
      · have hrest : (c.issuedAt ≠ none ∨ c.id = [] ∨ gw.revocations = none ∨ apiKey ≠ [] ∧
            ∀ i, some info = some i → c.matchesTenantUUID i.tenantID = false) ↔
              c.issuedAt ≠ none ∨ c.id = [] ∨ gw.revocations = none := by simp [hm]
        rw [hrest, ← hadmit]
        cases admitClaims gw c with
        | error e | ok u => simp [hm]
      · simp [hm, hk]

/-- **What a refresh admits** would be accepted as a connect iff the token has a `jti`, is not revoked, and the API key is still
valid. -/
theorem refresh_admitted_iff (gw : Env) (now : Time) (anon tok apiKey : GoStr) (p p' : Proxy) (revoked : List GoStr)
    (exp : Int) (c : Claims) (hswap : interceptAuthRefresh gw now true (some tok) p = .swapped p' revoked exp)
    (hclaims : p'.claims = some c) :
    (∃ res, authenticateRequest gw now anon tok apiKey = .ok res ∧ res.claims = some c ∧ res.tenantSlug = p.tenantID) ↔
      Admissible gw apiKey c := by
  obtain ⟨tok', v, c', htok, hne, hv, hc, hten, hcl, -⟩ := interceptAuthRefresh_swapped hswap
  cases htok
  rw [hcl] at hclaims
  cases hclaims
  rw [← hten]
  exact authenticateRequest_ok_iff hne hv hc

def demoClaims (jti : GoStr) : Claims := ⟨jti, str "user", [], some 10, none, str "acme", [], [], [], [], []⟩

def demoLib : JWTLib where
  parse := fun tok => some ⟨some (str "key-1"), some (str "ES256"), demoClaims tok⟩
  verify := fun _ _ => true
  check := fun _ _ => none

def demoEnv : Env where
  lib := demoLib
  validator := some { getKey := fun _ => .ok ⟨str "key-1", str "uuid-1", str "ES256", [], true, none, none⟩
                      requireTenantID := true, allowedAlgorithms := [], allowedIssuers := []
                      tenantResolver := fun slug => if slug = str "acme" then some (str "uuid-1") else none }
  apiKeys := APIKeyRegistry.empty
  revocations := some ⟨Map.empty.set (str "bad") ⟨str "acme", 100⟩, Map.empty⟩
  provider := none

def demoProxy : Proxy := ⟨some (demoClaims (str "first")), str "acme", false, [], [], 65536, 65536⟩

theorem refresh_admitted_iff_demo :
    ∃ p' res, interceptAuthRefresh demoEnv 0 true (some (str "good")) demoProxy = .swapped p' [] 0 ∧
      authenticateRequest demoEnv 0 [] (str "good") [] = .ok res ∧ res.claims = p'.claims := by
  obtain ⟨p', c, hswap, hc, hok⟩ : ∃ p' c, interceptAuthRefresh demoEnv 0 true (some (str "good")) demoProxy =
      .swapped p' [] 0 ∧ p'.claims = some c ∧ Admissible demoEnv [] c := by
    refine ⟨_, _, rfl, rfl, by decide, ?_, by simp⟩
    rintro snap ⟨⟩
    exact ⟨10, rfl, by decide⟩
  obtain ⟨res, hres, hcl, -⟩ := (refresh_admitted_iff demoEnv 0 [] (str "good") [] demoProxy p' [] 0 c hswap hc).2 hok
  exact ⟨p', res, hswap, hres, hcl.trans hc.symm⟩

/-- **Bug**: a revoked token, with which nobody could connect, is accepted by a refresh. -/
theorem revoked_token_refreshes :
    ∃ p' c, interceptAuthRefresh demoEnv 0 true (some (str "bad")) demoProxy = .swapped p' [] 0 ∧ p'.claims = some c ∧
      (demoEnv.revocations.any fun snap => isRevoked snap c.id c.subject c.tenantID 10) = true ∧
      authenticateRequest demoEnv 0 [] (str "bad") [] = .error .tokenRevoked := by
  refine ⟨_, _, rfl, rfl, by decide, by decide⟩

theorem accepted_no_nilDereference_iff_demo : ∃ v c, demoEnv.validator = some v ∧
    v.validateToken demoEnv.lib 0 (str "good") = .ok c ∧ authenticateRequest demoEnv 0 [] (str "good") [] ≠ .error .nilDereference :=
  ⟨_, _, rfl, rfl, (accepted_no_nilDereference_iff demoEnv 0 [] (str "good") [] _ _ rfl rfl).2 (Or.inl (by decide))⟩

def untimedEnv : Env :=
  { demoEnv with
    lib := { demoLib with parse := fun tok => some ⟨some (str "key-1"), some (str "ES256"), { demoClaims tok with issuedAt := none }⟩ }
    apiKeys := ⟨Map.empty.set (str "pk") ⟨str "pk", str "uuid-1", [], true⟩⟩ }

/-- **Bug**: a token without an `iat` claim that the validator accepts makes both branches dereference nil
(`auth_request.go:214`, `:286`). -/
theorem untimed_token_panics : (∃ v c, untimedEnv.validator = some v ∧ v.validateToken untimedEnv.lib 0 (str "good") = .ok c) ∧
    authenticateRequest untimedEnv 0 [] (str "good") [] = .error .nilDereference ∧
    authenticateRequest untimedEnv 0 [] (str "good") (str "pk") = .error .nilDereference := by
  refine ⟨⟨_, _, rfl, rfl⟩, by decide, by decide⟩

end Sukko.Gateway
