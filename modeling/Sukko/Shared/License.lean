import Sukko.Lib.Base64
import Sukko.Lib.Json.Decode
/-
# License keys and the license manager

A later key replaces the license only when it was issued later, and at run time the edition and the limits are never lowered.

**Signature boundary**: which signatures the embedded public keys accept is the parameter `verifyAnyKey`.
-/

namespace Sukko.License
open Json

/-! ## Editions and limits -/

structure Edition where
  name : GoStr
deriving DecidableEq

namespace Edition

def community : Edition := ⟨str "community"⟩
def pro : Edition := ⟨str "pro"⟩
def enterprise : Edition := ⟨str "enterprise"⟩

def normalize (e : Edition) : Edition := if e.name = [] then community else e

def rank (e : Edition) : Nat :=
  if e = pro then 1
  else if e = enterprise then 2
  else 0

def isAtLeast (e other : Edition) : Bool := other.normalize.rank ≤ e.normalize.rank

end Edition

structure Limits where
  edition : Edition
  maxTenants : Int
  maxTotalConnections : Int
  maxShards : Int
  maxTopicsPerTenant : Int
  maxRoutingRulesPerTenant : Int
deriving DecidableEq

/-- See `shared/license/limits.go:33`. -/
def defaultLimits (edition : Edition) : Limits :=
  if edition.normalize = .pro then ⟨.pro, 50, 10000, 8, 50, 100⟩
  else if edition.normalize = .enterprise then ⟨.enterprise, 0, 0, 0, 0, 0⟩
  else ⟨.community, 3, 500, 1, 10, 10⟩

def overrideLimit (claim default : Int) : Int := if 0 < claim then claim else default

/-- See `shared/license/manager.go:160`. -/
def resolveLimits (edition : Edition) (claims : Limits) : Limits :=
  let defaults := defaultLimits edition
  { edition := defaults.edition
    maxTenants := overrideLimit claims.maxTenants defaults.maxTenants
    maxTotalConnections := overrideLimit claims.maxTotalConnections defaults.maxTotalConnections
    maxShards := overrideLimit claims.maxShards defaults.maxShards
    maxTopicsPerTenant := overrideLimit claims.maxTopicsPerTenant defaults.maxTopicsPerTenant
    maxRoutingRulesPerTenant := overrideLimit claims.maxRoutingRulesPerTenant defaults.maxRoutingRulesPerTenant }

/-- See `shared/license/limits.go:120`. -/
def dimensionCovers (held want : Int) : Bool :=
  if held = 0 then true
  else if want = 0 then false
  else want ≤ held

/-- See `shared/license/limits.go:110`. -/
def Limits.coversAtLeast (l other : Limits) : Bool :=
  dimensionCovers l.maxTenants other.maxTenants &&
    dimensionCovers l.maxTotalConnections other.maxTotalConnections &&
    dimensionCovers l.maxShards other.maxShards &&
    dimensionCovers l.maxTopicsPerTenant other.maxTopicsPerTenant &&
    dimensionCovers l.maxRoutingRulesPerTenant other.maxRoutingRulesPerTenant

/-! ## Keys -/

structure Claims where
  edition : Edition
  org : GoStr
  exp : Int
  iat : Int
  nodes : Int
  limits : Limits
deriving DecidableEq

def Limits.zero : Limits := ⟨⟨[]⟩, 0, 0, 0, 0, 0⟩
def Claims.zero : Claims := ⟨⟨[]⟩, [], 0, 0, 0, .zero⟩
def decodeEdition (v : Value) (old : Edition) : Option Edition := (decodeString v old.name).map Edition.mk

def limitsFields : List (StructField Limits) :=
  [⟨"edition".toList, fun v l => (decodeEdition v l.edition).map fun x => { l with edition := x }⟩,
   ⟨"max_tenants".toList, fun v l => (decodeInt v l.maxTenants).map fun x => { l with maxTenants := x }⟩,
   ⟨"max_total_connections".toList, fun v l =>
      (decodeInt v l.maxTotalConnections).map fun x => { l with maxTotalConnections := x }⟩,
   ⟨"max_shards".toList, fun v l => (decodeInt v l.maxShards).map fun x => { l with maxShards := x }⟩,
   ⟨"max_topics_per_tenant".toList, fun v l =>
      (decodeInt v l.maxTopicsPerTenant).map fun x => { l with maxTopicsPerTenant := x }⟩,
   ⟨"max_routing_rules_per_tenant".toList, fun v l =>
      (decodeInt v l.maxRoutingRulesPerTenant).map fun x => { l with maxRoutingRulesPerTenant := x }⟩]

def claimsFields : List (StructField Claims) :=
  [⟨"edition".toList, fun v c => (decodeEdition v c.edition).map fun x => { c with edition := x }⟩,
   ⟨"org".toList, fun v c => (decodeString v c.org).map fun x => { c with org := x }⟩,
   ⟨"exp".toList, fun v c => (decodeInt v c.exp).map fun x => { c with exp := x }⟩,
   ⟨"iat".toList, fun v c => (decodeInt v c.iat).map fun x => { c with iat := x }⟩,
   ⟨"nodes".toList, fun v c => (decodeInt v c.nodes).map fun x => { c with nodes := x }⟩,
   ⟨"limits".toList, fun v c => (decodeObject limitsFields v c.limits).map fun x => { c with limits := x }⟩]

/-- The sentinel errors of the package (`shared/license/errors.go`). -/
inductive LicenseError
  | noLicense
  | expired
  | invalidSignature
  | invalidFormat
  | replayDetected
  | unchanged
deriving DecidableEq

def rawSigLen : Nat := 64

section
variable (verifyAnyKey : GoStr → GoStr → Bool) {now : Int}

def verify (key : GoStr) : Except LicenseError Claims :=
  match GoStr.split GoStr.dot key with
  | [p, s] =>
    match Base64.decode p, Base64.decode s with
    | some payload, some sig =>
      if sig.length ≠ rawSigLen then .error .invalidFormat
      else if verifyAnyKey payload sig = false then .error .invalidSignature
      else
        match unmarshal claimsFields .zero payload with
        | some claims => .ok claims
        | none => .error .invalidFormat
    | _, _ => .error .invalidFormat
  | _ => .error .invalidFormat

structure SignedKey where
  text : GoStr
  claims : Claims
  signed : verify verifyAnyKey text = .ok claims

/-- See `shared/license/license.go:246`. -/
def parseAndVerify (now : Int) (key : GoStr) : Except LicenseError (SignedKey verifyAnyKey) :=
  match h : verify verifyAnyKey key with
  | .error e => .error e
  | .ok claims => if claims.exp < now then .error .expired else .ok ⟨key, claims, h⟩

variable {verifyAnyKey}

theorem SignedKey.text_ne_nil (key : SignedKey verifyAnyKey) : key.text ≠ [] := by
  intro h
  have hs := key.signed
  rw [h] at hs
  cases hs

theorem SignedKey.claims_eq (key key' : SignedKey verifyAnyKey) (h : key.text = key'.text) : key.claims = key'.claims := by
  have hs := key.signed
  rw [h, key'.signed] at hs
  exact (Except.ok.inj hs).symm

theorem parseAndVerify_ok {text : GoStr} {key : SignedKey verifyAnyKey}
    (h : parseAndVerify verifyAnyKey now text = .ok key) : key.text = text ∧ now ≤ key.claims.exp := by
  unfold parseAndVerify at h
  split at h
  · cases h
  split at h
  · cases h
  · cases h
    exact ⟨rfl, Int.not_lt.1 ‹_›⟩

theorem SignedKey.parseAndVerify_text (key : SignedKey verifyAnyKey) (h : now ≤ key.claims.exp) :
    parseAndVerify verifyAnyKey now key.text = .ok key := by
  unfold parseAndVerify
  split
  · rename_i e he
    rw [key.signed] at he
    cases he
  · rename_i claims hc
    rw [key.signed] at hc
    cases hc
    exact if_neg (Int.not_lt.2 h)

end

/-! ## The manager -/

/-- See `shared/license/reload.go:125`. -/
def classifyReplay (current : Option Claims) (incoming : Claims) : Except LicenseError Unit :=
  match current with
  | none => .ok ()
  | some current =>
    if current.iat = 0 then .ok ()
    else if current.iat < incoming.iat then .ok ()
    else if incoming.iat = current.iat ∧ current = incoming then .error .unchanged
    else .error .replayDetected

theorem classifyReplay_ok_iff {current : Option Claims} {incoming : Claims} :
    classifyReplay current incoming = .ok () ↔ ∀ c ∈ current, c.iat = 0 ∨ c.iat < incoming.iat := by
  unfold classifyReplay
  cases current with
  | none => simp
  | some c =>
    simp only [Option.mem_some_iff, forall_eq']
    split
    · simp [*]
    · split
      · simp [*]
      · split <;> simp [*]

structure Manager where
  edition : Edition
  limits : Limits
  claims : Option Claims
deriving DecidableEq

def Manager.ofClaims (claims : Claims) : Manager :=
  let edition := claims.edition.normalize
  ⟨edition, resolveLimits edition claims.limits, some claims⟩

def Manager.apply (_ : Manager) (claims : Claims) : Manager := .ofClaims claims
def Manager.previewReload (m : Manager) (claims : Claims) : Except LicenseError Unit := classifyReplay m.claims claims

variable (verifyAnyKey : GoStr → GoStr → Bool) {key : SignedKey verifyAnyKey} {text : GoStr}

/-- Part of `parseAndCheckReplayLocked` (`shared/license/reload.go:93`). -/
def Manager.parseAndCheckReplay (m : Manager) (now : Int) (text : GoStr) : Except LicenseError Claims :=
  match parseAndVerify verifyAnyKey now text with
  | .error e => .error e
  | .ok key =>
    match classifyReplay m.claims key.claims with
    | .error e => .error e
    | .ok () => .ok key.claims

/-- See `shared/license/reload.go:24`. -/
def Manager.reload (m : Manager) (now : Int) (text : GoStr) : Except LicenseError Manager :=
  match m.parseAndCheckReplay verifyAnyKey now text with
  | .error e => .error e
  | .ok claims => .ok (m.apply claims)

/-- See `shared/license/reload.go:61`. -/
def Manager.reloadNoDowngrade (m : Manager) (now : Int) (text : GoStr) : Except LicenseError (Manager × Bool) :=
  match m.parseAndCheckReplay verifyAnyKey now text with
  | .error e => .error e
  | .ok claims =>
    let newEdition := claims.edition.normalize
    let newLimits := resolveLimits newEdition claims.limits
    if !newEdition.isAtLeast m.edition || !newLimits.coversAtLeast m.limits then .ok (m, false)
    else .ok (m.apply claims, true)

/-- See `shared/license/manager.go:76`. -/
def newManager (now : Int) (text : GoStr) : Except LicenseError Manager :=
  if text = [] then .error .noLicense
  else
    match parseAndVerify verifyAnyKey now text with
    | .error e => .error e
    | .ok key => .ok (.ofClaims key.claims)

/-- See `cmd/provisioning/license_resolve.go:31`. -/
def resolveProvisioningLicense (now : Int) (envMgr : Option Manager) (envKey dbKey : GoStr) :
    Except LicenseError (Manager × GoStr) :=
  match envMgr with
  | some envMgr =>
    if dbKey = [] then .ok (envMgr, envKey)
    else
      match envMgr.reload verifyAnyKey now dbKey with
      | .ok mgr => .ok (mgr, dbKey)
      | .error .unchanged => .ok (envMgr, dbKey)
      | .error _ => .ok (envMgr, envKey)
  | none =>
    if dbKey = [] then .error (if envKey = [] then .noLicense else .expired)
    else
      match newManager verifyAnyKey now dbKey with
      | .error e => .error e
      | .ok mgr => .ok (mgr, dbKey)

variable {verifyAnyKey} {now : Int} {m : Manager}

theorem Manager.parseAndCheckReplay_ok {claims : Claims} (h : m.parseAndCheckReplay verifyAnyKey now text = .ok claims) :
    ∃ key, parseAndVerify verifyAnyKey now text = .ok key ∧ key.claims = claims ∧
      ∀ c ∈ m.claims, c.iat = 0 ∨ c.iat < claims.iat := by
  unfold parseAndCheckReplay at h
  split at h
  · cases h
  rename_i key hk
  split at h
  · cases h
  rename_i hok
  cases h
  exact ⟨key, hk, rfl, classifyReplay_ok_iff.1 hok⟩

theorem Manager.reloadNoDowngrade_ok {m' : Manager} {applied : Bool}
    (h : m.reloadNoDowngrade verifyAnyKey now text = .ok (m', applied)) :
    ∃ key, parseAndVerify verifyAnyKey now text = .ok key ∧ (∀ c ∈ m.claims, c.iat = 0 ∨ c.iat < key.claims.iat) ∧
      (applied = false ∧ m' = m ∨ applied = true ∧ m' = .ofClaims key.claims ∧
        m'.edition.isAtLeast m.edition = true ∧ m'.limits.coversAtLeast m.limits = true) := by
  unfold reloadNoDowngrade at h
  split at h
  · cases h
  rename_i claims hc
  obtain ⟨key, hk, rfl, hn⟩ := parseAndCheckReplay_ok hc
  refine ⟨key, hk, hn, ?_⟩
  dsimp only at h
  split at h
  · cases h
    exact .inl ⟨rfl, rfl⟩
  · rename_i hl
    rw [Bool.or_eq_true, not_or] at hl
    simp only [Bool.not_eq_true', Bool.not_eq_false] at hl
    cases h
    exact .inr ⟨rfl, rfl, hl.1, hl.2⟩

theorem Manager.reload_of_newer (he : now ≤ key.claims.exp) (hn : ∀ c ∈ m.claims, c.iat = 0 ∨ c.iat < key.claims.iat) :
    m.reload verifyAnyKey now key.text = .ok (.ofClaims key.claims) := by
  unfold reload parseAndCheckReplay
  rw [key.parseAndVerify_text he]
  simp only [classifyReplay_ok_iff.2 hn]
  rfl

theorem newManager_text (he : now ≤ key.claims.exp) : newManager verifyAnyKey now key.text = .ok (.ofClaims key.claims) := by
  unfold newManager
  rw [if_neg key.text_ne_nil, key.parseAndVerify_text he]

/-- **A boot takes the stored key** when it has not expired and the key of the environment is absent or older. -/
theorem resolveProvisioningLicense_of_newer {envMgr : Option Manager} (envKey : GoStr) (he : now ≤ key.claims.exp)
    (hn : ∀ m ∈ envMgr, ∀ c ∈ m.claims, c.iat < key.claims.iat) :
    resolveProvisioningLicense verifyAnyKey now envMgr envKey key.text = .ok (.ofClaims key.claims, key.text) := by
  unfold resolveProvisioningLicense
  cases envMgr with
  | none => simp only [if_neg key.text_ne_nil, newManager_text he]
  | some m =>
    have hm := Manager.reload_of_newer (m := m) he fun c hc => .inr (hn m rfl c hc)
    simp only [if_neg key.text_ne_nil, hm]

/-! ## A community key -/

def communityKey (iat : String) : GoStr :=
  Base64.encode (str ("\x7b\"exp\":90,\"iat\":" ++ iat ++ "\x7d")) ++ GoStr.dot :: Base64.encode (List.replicate rawSigLen 0)

def anySignature (_ _ : GoStr) : Bool := true

end Sukko.License
