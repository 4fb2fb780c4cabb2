import Sukko.Gateway.Revocations
import Sukko.Lib.Json.Decode
/-
# Push subscriptions

**Database boundary**: a statement that fails changes nothing; the deletes of a revocation are taken to succeed.
-/

namespace Sukko.Push
open Auth Gateway Channels Json ProvApi Replica

/-! ## The gateway -/

structure PushSubscribeRequest where
  platform : GoStr
  token : GoStr
  endpoint : GoStr
  p256dhKey : GoStr
  authSecret : GoStr
  channels : StrSlice
deriving DecidableEq

def PushSubscribeRequest.zero : PushSubscribeRequest := ⟨[], [], [], [], [], .nil⟩

def pushSubscribeFields : List (StructField PushSubscribeRequest) :=
  [⟨"platform".toList, fun v r => (decodeString v r.platform).map fun x => { r with platform := x }⟩,
   ⟨"token".toList, fun v r => (decodeString v r.token).map fun x => { r with token := x }⟩,
   ⟨"endpoint".toList, fun v r => (decodeString v r.endpoint).map fun x => { r with endpoint := x }⟩,
   ⟨"p256dh_key".toList, fun v r => (decodeString v r.p256dhKey).map fun x => { r with p256dhKey := x }⟩,
   ⟨"auth_secret".toList, fun v r => (decodeString v r.authSecret).map fun x => { r with authSecret := x }⟩,
   ⟨"channels".toList, fun v r => (decodeStrings v r.channels).map fun x => { r with channels := x }⟩]

def validPlatforms : List GoStr := [str "web", str "android", str "ios"]

inductive RegisterErr
  | webPushEdition
  | tenantRequired
  | badPlatform (got : GoStr)
  | mobilePushEdition
  | endpointRequired
  | p256dhKeyRequired
  | authSecretRequired
  | tokenRequired (platform : GoStr)
  | noChannels
  | foreignChannel (channel tenant : GoStr)
deriving DecidableEq

inductive PushErr
  | auth (e : RequestErr)
  | bodyTooLarge
  | invalidJSON
  | badPlatform
  | webFieldsRequired
  | tokenRequired
  | noChannels
  | denied (channels : List GoStr)
  | noConnection
  | service (e : RegisterErr)
deriving DecidableEq

def checkPlatform (req : PushSubscribeRequest) : Except PushErr Unit :=
  if req.platform ∉ validPlatforms then .error .badPlatform
  else if req.platform = str "web" then
    if req.endpoint = [] ∨ req.p256dhKey = [] ∨ req.authSecret = [] then .error .webFieldsRequired else .ok ()
  else if req.token = [] then .error .tokenRequired
  else .ok ()

structure RegisterDeviceRequest where
  tenantSlug : GoStr
  principal : GoStr
  platform : GoStr
  token : GoStr
  endpoint : GoStr
  p256dhKey : GoStr
  authSecret : GoStr
  channels : List GoStr
  jti : GoStr
  tokenIat : Int
deriving DecidableEq

def subscribeRequest (gw : Env) (maxPublishSize : Nat) (connected : Bool) (authRes : AuthResult) (body : GoStr) :
    Except PushErr RegisterDeviceRequest :=
  if maxPublishSize < body.length then .error .bodyTooLarge
  else
    match unmarshal pushSubscribeFields .zero body with
    | none => .error .invalidJSON
    | some req =>
      match checkPlatform req with
      | .error e => .error e
      | .ok () =>
        let channels := req.channels.items
        if channels = [] then .error .noChannels
        else
          let allowed := filterSubscribeChannels gw.provider channels authRes.tenantSlug authRes.claims
          -- the denied channels are listed in the order of a Go map
          if allowed.length ≠ channels.length then
            .error (.denied ((deduplicate channels).filter (!allowed.contains ·)))
          else if !connected then .error .noConnection
          else
            .ok { tenantSlug := authRes.tenantSlug, principal := authRes.principal, platform := req.platform
                  token := req.token, endpoint := req.endpoint, p256dhKey := req.p256dhKey
                  authSecret := req.authSecret, channels := allowed
                  jti := (authRes.claims.map Claims.id).getD []
                  tokenIat := (authRes.claims.bind Claims.issuedAt).getD 0 }

/-! ## The push service -/

structure Features where
  webPush : Bool
  mobilePush : Bool
deriving DecidableEq

structure PushSubscription where
  id : Nat
  tenantID : GoStr
  principal : GoStr
  platform : GoStr
  token : GoStr
  endpoint : GoStr
  p256dhKey : GoStr
  authSecret : GoStr
  channels : List GoStr
  jti : GoStr
  tokenIAT : Int
deriving DecidableEq

def zeroTime : Int := -62135596800

def checkFields (req : RegisterDeviceRequest) : Except RegisterErr Unit :=
  if req.platform = str "web" then
    if req.endpoint = [] then .error .endpointRequired
    else if req.p256dhKey = [] then .error .p256dhKeyRequired
    else if req.authSecret = [] then .error .authSecretRequired
    else .ok ()
  else if req.token = [] then .error (.tokenRequired req.platform)
  else .ok ()

/-- See `push/grpcserver/server.go:91`. -/
def registerDevice (features : Features) (req : RegisterDeviceRequest) : Except RegisterErr PushSubscription :=
  if !features.webPush then .error .webPushEdition
  else if req.tenantSlug = [] then .error .tenantRequired
  else if req.platform ∉ validPlatforms then .error (.badPlatform req.platform)
  else if req.platform ≠ str "web" ∧ !features.mobilePush then .error .mobilePushEdition
  else
    match checkFields req with
    | .error e => .error e
    | .ok () =>
      if req.channels = [] then .error .noChannels
      else
        match req.channels.find? fun ch => !validateChannelTenant ch req.tenantSlug with
        | some ch => .error (.foreignChannel ch req.tenantSlug)
        | none =>
          .ok { id := 0, tenantID := req.tenantSlug, principal := req.principal, platform := req.platform
                token := req.token, endpoint := req.endpoint, p256dhKey := req.p256dhKey
                authSecret := req.authSecret, channels := req.channels, jti := [], tokenIAT := zeroTime }

/-! ## The table -/

structure Row where
  sub : PushSubscription
  auth : AuthResult
deriving DecidableEq

def deleteByJTI (rows : List Row) (tenantID jti : GoStr) : List Row :=
  rows.filter fun r => !(r.sub.tenantID == tenantID && r.sub.jti == jti)

def deleteBySub (rows : List Row) (tenantID principal : GoStr) (revokedAt : Int) : List Row :=
  rows.filter fun r =>
    !(r.sub.tenantID == tenantID && r.sub.principal == principal && decide (r.sub.tokenIAT < revokedAt))

def delete (rows : List Row) (id : Nat) (tenantID : GoStr) : List Row :=
  rows.filter fun r => !(r.sub.id == id && r.sub.tenantID == tenantID)

def findByTenant (rows : List Row) (tenantID : GoStr) : List Row := rows.filter (·.sub.tenantID == tenantID)

/-- See `push/revocation.go:20`. -/
def handleRevocation (rows : List Row) (entry : RevocationEntry) : List Row :=
  match entry.type with
  | .token => deleteByJTI rows entry.tenantID entry.jti
  | .user => deleteBySub rows entry.tenantID entry.sub entry.revokedAt
  | .other _ => rows

/-! ## Messages -/

def matchChannel (channelKey : GoStr) (patterns : List GoStr) : Bool := matchAnyWildcard patterns channelKey

/-- The devices that `Service.handleMessage` sends to (`push/service.go:231`). -/
def recipients (patterns : List GoStr) (rows : List Row) (tenantID channelKey : GoStr) : List Row :=
  if matchChannel channelKey patterns then
    (findByTenant rows tenantID).filter fun r => matchChannel channelKey r.sub.channels
  else []

/-! ## Runs -/

structure State where
  rows : List Row
  next : Nat

def State.init : State := ⟨[], 1⟩

def State.create (s : State) (sub : PushSubscription) (auth : AuthResult) : State :=
  ⟨s.rows ++ [⟨{ sub with id := s.next }, auth⟩], s.next + 1⟩

structure PushRequest where
  gw : Env
  maxPublishSize : Nat
  connected : Bool
  features : Features
  now : Time
  anon : GoStr
  token : GoStr
  apiKey : GoStr
  body : GoStr

/-- See `gateway/push_subscribe.go:82`. -/
def handlePushSubscribe (q : PushRequest) : Except PushErr (AuthResult × PushSubscription) :=
  match authenticateRequest q.gw q.now q.anon q.token q.apiKey with
  | .error e => .error (.auth e)
  | .ok authRes =>
    match subscribeRequest q.gw q.maxPublishSize q.connected authRes q.body with
    | .error e => .error e
    | .ok req =>
      match registerDevice q.features req with
      | .error e => .error (.service e)
      | .ok sub => .ok (authRes, sub)

inductive Act
  | subscribe (q : PushRequest)
  | unsubscribe (id : Nat) (tenantID : GoStr)
  | revocation (entry : RevocationEntry)

def step (s : State) : Act → Option State
  | .subscribe q =>
    match handlePushSubscribe q with
    | .error _ => some s
    | .ok (authRes, sub) => some (s.create sub authRes)
  | .unsubscribe id tenantID => some { s with rows := delete s.rows id tenantID }
  | .revocation entry => some { s with rows := handleRevocation s.rows entry }

/-! ## What an accepted request stores -/

structure Accepted (gw : Env) (authRes : AuthResult) (sub : PushSubscription) : Prop where
  tenantID : sub.tenantID = authRes.tenantSlug
  principal : sub.principal = authRes.principal
  jti : sub.jti = []
  tokenIAT : sub.tokenIAT = zeroTime
  channels : ∀ ch ∈ sub.channels, subscribeAllowed gw.provider authRes.tenantSlug authRes.claims ch = true

theorem subscribeRequest_ok {gw : Env} {maxPublishSize : Nat} {connected : Bool} {authRes : AuthResult} {body : GoStr}
    {req : RegisterDeviceRequest} (h : subscribeRequest gw maxPublishSize connected authRes body = .ok req) :
    req.tenantSlug = authRes.tenantSlug ∧ req.principal = authRes.principal ∧
      ∀ ch ∈ req.channels, subscribeAllowed gw.provider authRes.tenantSlug authRes.claims ch = true := by
  unfold subscribeRequest at h
  split at h
  · cases h
  split at h
  · cases h
  split at h
  · cases h
  dsimp only at h
  split at h
  · cases h
  split at h
  · cases h
  split at h
  · cases h
  cases h
  refine ⟨rfl, rfl, fun ch hch => ?_⟩
  rw [filterSubscribeChannels_eq] at hch
  exact (List.mem_filter.1 hch).2

theorem registerDevice_ok {features : Features} {req : RegisterDeviceRequest} {sub : PushSubscription}
    (h : registerDevice features req = .ok sub) :
    sub.tenantID = req.tenantSlug ∧ sub.principal = req.principal ∧ sub.channels = req.channels ∧ sub.jti = [] ∧
      sub.tokenIAT = zeroTime := by
  unfold registerDevice at h
  split at h
  · cases h
  split at h
  · cases h
  split at h
  · cases h
  split at h
  · cases h
  split at h
  · cases h
  split at h
  · cases h
  split at h
  · cases h
  · cases h
    exact ⟨rfl, rfl, rfl, rfl, rfl⟩

/-- **What an accepted request stores**: the caller's tenant and principal and allowed channels, but neither the
`jti` nor the issue time of its token. -/
theorem handlePushSubscribe_ok {q : PushRequest} {authRes : AuthResult} {sub : PushSubscription}
    (h : handlePushSubscribe q = .ok (authRes, sub)) :
    authenticateRequest q.gw q.now q.anon q.token q.apiKey = .ok authRes ∧ Accepted q.gw authRes sub := by
  unfold handlePushSubscribe at h
  split at h
  · cases h
  rename_i authRes' ha
  split at h
  · cases h
  rename_i req hr
  split at h
  · cases h
  rename_i sub' hs
  cases h
  obtain ⟨htn, hpr, hch⟩ := subscribeRequest_ok hr
  obtain ⟨ht, hp, hc, hj, hi⟩ := registerDevice_ok hs
  exact ⟨ha, ht.trans htn, hp.trans hpr, hj, hi, hc ▸ hch⟩

def demoClaims (token : GoStr) : Claims :=
  ⟨token, str "user", [], some (if token = str "new" then 30 else 10), none, str "acme", [], [], [], [], []⟩

def demoGateway (patterns : List GoStr) : Env where
  lib := { parse := fun tok => some ⟨some (str "key-1"), some (str "ES256"), demoClaims tok⟩
           verify := fun _ _ => true, check := fun _ _ => none }
  validator := some { getKey := fun _ => .ok ⟨str "key-1", str "uuid-1", str "ES256", [], true, none, none⟩
                      requireTenantID := true, allowedAlgorithms := [], allowedIssuers := []
                      tenantResolver := fun slug => if slug = str "acme" then some (str "uuid-1") else none }
  apiKeys := APIKeyRegistry.empty
  revocations := none
  provider := some { Provider.empty with channelRules := Map.empty.set (str "acme") ⟨patterns, [], [], [], [], []⟩ }

def demoRequest (patterns : List GoStr) (token channel : GoStr) : PushRequest where
  gw := demoGateway patterns
  maxPublishSize := 1000
  connected := true
  features := ⟨true, false⟩
  now := 0
  anon := []
  token := token
  apiKey := []
  body := str "\x7b\"platform\":\"web\",\"endpoint\":\"e\",\"p256dh_key\":\"k\",\"auth_secret\":\"a\",\"channels\":[\"" ++
                      channel ++ str "\"]\x7d"

example : (handlePushSubscribe (demoRequest [str "news"] (str "old") (str "acme.news"))).map (fun p => p.2.channels) =
    .ok [str "acme.news"] := by decide +kernel

end Sukko.Push
