import Sukko.Lib.Feed
import Sukko.Lib.Steps
import Sukko.Provisioning.Credentials
import Sukko.ProvApi.KeyRegistry
/-
# Revocations on their way to the gateway

A stream opens with a snapshot of the active set and answers every event of its type with a delta that carries it anew
(`provisioning/grpcserver/server.go:111`, `:289`). A message is applied in the step that loads it.
-/

namespace Sukko.ProvApi
open Provisioning Replica Table Feed Steps Auth List

abbrev KeyLoad := Load Time TenantKey GoStr
abbrev APIKeyLoad := Load Time APIKey GoStr

structure KeyState where
  now : Time
  store : Store
  keyEvents : Nat
  apiEvents : Nat
  registry : KeyRegistry
  apiKeys : APIKeyRegistry
  keyLoad : Option KeyLoad
  apiLoad : Option APIKeyLoad

def KeyState.init : KeyState :=
  ⟨0, Store.empty, 0, 0, KeyRegistry.empty, APIKeyRegistry.empty, none, none⟩

inductive KeyAct
  | op (o : Op)
  | tick (d : Nat)
  | keysSnapshot
  | keysDelta
  | apiKeysSnapshot
  | apiKeysDelta
deriving DecidableEq

def KeyAct.keyParses (parses : GoStr → GoStr → Bool) : KeyAct → Bool
  | .op o => o.keyParses parses
  | _ => true

/-! ## The machine -/

def watchKeys (isSnapshot : Bool) (now : Time) (rows : List TenantKey) : WatchKeysResponse :=
  ⟨isSnapshot, convertKeys (Keys.getActiveKeys now rows), []⟩

def watchAPIKeys (isSnapshot : Bool) (rows : List APIKey) : WatchAPIKeysResponse :=
  ⟨isSnapshot, convertAPIKeys (APIKeys.getActiveAPIKeys rows), []⟩

def deliverKeys (parses : GoStr → GoStr → Bool) (isSnapshot : Bool) (s : KeyState) : KeyState :=
  { s with
      registry := s.registry.updateKeys parses (watchKeys isSnapshot s.now s.store.keys)
      keyLoad := some (load TenantKey.keyID s.now s.store.keys (Keys.getActiveKeys s.now s.store.keys)
        isSnapshot (sent s.keyLoad)) }

def deliverAPIKeys (isSnapshot : Bool) (s : KeyState) : KeyState :=
  { s with
      apiKeys := s.apiKeys.updateKeys (watchAPIKeys isSnapshot s.store.apiKeys)
      apiLoad := some (load APIKey.keyID s.now s.store.apiKeys (APIKeys.getActiveAPIKeys s.store.apiKeys)
        isSnapshot (sent s.apiLoad)) }

def keyStep (cfg : Config) (parses : GoStr → GoStr → Bool) (s : KeyState) : KeyAct → Option KeyState
  | .op o =>
    let out := exec cfg s.now s.store o
    some { s with
             store := out.store
             keyEvents := s.keyEvents + out.events.count .keysChanged
             apiEvents := s.apiEvents + out.events.count .apiKeysChanged }
  | .tick d => some { s with now := s.now + d }
  | .keysSnapshot => some { deliverKeys parses true s with keyEvents := 0 }
  | .keysDelta =>
    if s.keyLoad.isSome && 0 < s.keyEvents then
      some { deliverKeys parses false s with keyEvents := s.keyEvents - 1 }
    else none
  | .apiKeysSnapshot => some { deliverAPIKeys true s with apiEvents := 0 }
  | .apiKeysDelta =>
    if s.apiLoad.isSome && 0 < s.apiEvents then
      some { deliverAPIKeys false s with apiEvents := s.apiEvents - 1 }
    else none

/-! ## What the registries should say -/

def unexpired (now : Time) (k : TenantKey) : Bool := k.expiresAt.all (now < ·)

/-- `GetKey` succeeds (expiry aside) exactly on the ids of the message. -/
def KeysAgree (now : Time) (r : KeyRegistry) (l : KeyLoad) : Prop :=
  ∀ k, (∀ row ∈ l.table, row.keyID = k → unexpired l.time row = true) →
    (r.succeedsExpiryAside now k = true ↔ k ∈ l.active.map TenantKey.keyID)

/-- `Lookup` succeeds exactly on the ids of the message. -/
def APIKeysAgree (r : APIKeyRegistry) (l : APIKeyLoad) : Prop :=
  ∀ k, (r.lookup k).isSome = true ↔ k ∈ l.active.map APIKey.keyID

/-- No key sent since the last snapshot was revoked before the last load. -/
def NoneRevoked (l : KeyLoad) : Prop :=
  ∀ row ∈ l.table, unexpired l.time row = true → row.keyID ∈ l.since → row.isActive = true

def NoneRevokedAPI (l : APIKeyLoad) : Prop :=
  ∀ row ∈ l.table, row.keyID ∈ l.since → row.isActive = true

/-! ## The invariant -/

structure KeyInv (parses : GoStr → GoStr → Bool) (s : KeyState) : Prop where
  keyRows : Valid TenantKey.keyID (TenantKey.Good parses) s.store.keys
  apiRows : Valid APIKey.keyID APIKey.Good s.store.apiKeys
  keyLive : ∀ k i, s.registry.keysByID k = some i → KeyRegistry.Live i
  apiLive : ∀ k i, s.apiKeys.keysByID k = some i → i.isActive = true
  keyFed : Fed TenantKey.keyID (TenantKey.Good parses) s.registry.keysByID s.keyLoad s.store.keys
  apiFed : Fed APIKey.keyID APIKey.Good s.apiKeys.keysByID s.apiLoad s.store.apiKeys
  keyActive : ∀ l, s.keyLoad = some l → l.active = Keys.getActiveKeys l.time l.table
  apiActive : ∀ l, s.apiLoad = some l → l.active = APIKeys.getActiveAPIKeys l.table

variable {cfg : Config} {parses : GoStr → GoStr → Bool} {s s' : KeyState}

theorem KeyInv.init : KeyInv parses KeyState.init where
  keyRows := .nil
  apiRows := .nil
  keyLive := by simp [KeyState.init, KeyRegistry.empty, Map.empty]
  apiLive := by simp [KeyState.init, APIKeyRegistry.empty, Map.empty]
  keyFed := rfl
  apiFed := rfl
  keyActive := by simp [KeyState.init]
  apiActive := by simp [KeyState.init]

def cached (k : TenantKey) : KeyInfo where
  keyID := k.keyID
  tenantID := k.tenantID
  algorithm := k.algorithm
  publicKeyPEM := k.publicKey
  isActive := k.revokedAt.isNone
  expiresAt := if (convertKey k).expiresAtUnix > 0 then some ((convertKey k).expiresAtUnix * 1000000000) else none
  revokedAt := none

theorem filterMap_convertKeys {rows : List TenantKey} (h : ∀ k ∈ rows, TenantKey.Good parses k) :
    (convertKeys rows).filterMap (protoToKeyInfo parses) = rows.map cached := by
  induction rows with
  | nil => rfl
  | cons k rows ih =>
    have hk : parses k.publicKey k.algorithm = true := (h k (by simp)).2
    have hr := ih fun k' hk' => h k' (by simp [hk'])
    have hh : protoToKeyInfo parses (convertKey k) = some (cached k) := by
      simp [protoToKeyInfo, convertKey, cached, hk]
    simp only [convertKeys, map_cons, filterMap_cons, hh]
    exact congrArg _ hr

theorem mem_getActiveKeys {now : Time} {rows : List TenantKey} {k : TenantKey} : k ∈ Keys.getActiveKeys now rows ↔
      k ∈ rows ∧ k.isActive = true ∧ k.revokedAt = none ∧ unexpired now k = true := by
  simp [Keys.getActiveKeys, unexpired, and_assoc]

theorem mem_getActiveAPIKeys {rows : List APIKey} {k : APIKey} :
    k ∈ APIKeys.getActiveAPIKeys rows ↔ k ∈ rows ∧ k.isActive = true ∧ k.revokedAt = none := by
  simp [APIKeys.getActiveAPIKeys]

section
variable (hi : KeyInv parses s)
include hi

theorem KeyInv.deliverKeys (snap : Bool) : KeyInv parses (deliverKeys parses snap s) := by
  have hg : ∀ k ∈ Keys.getActiveKeys s.now s.store.keys, TenantKey.Good parses k :=
    fun k hk => hi.keyRows.good k (mem_getActiveKeys.1 hk).1
  have hw : (KeyRegistry.message parses (watchKeys snap s.now s.store.keys)).writes =
      (Keys.getActiveKeys s.now s.store.keys).map fun k => (k.keyID, cached k) := by
    simp only [KeyRegistry.message, watchKeys, filterMap_convertKeys hg, map_map]
    rfl
  have hr := KeyRegistry.updateKeys_keysByID parses (watchKeys snap s.now s.store.keys) s.registry
  refine { hi with keyLive := ?_, keyFed := ?_, keyActive := ?_ }
  · intro k i h
    change (s.registry.updateKeys parses (watchKeys snap s.now s.store.keys)).keysByID k = some i at h
    rw [hr, Message.apply, hw] at h
    rcases Map.mem_of_setAll_eq_some h with h | h
    · obtain ⟨row, hrw, heq⟩ := mem_map.1 h
      cases heq
      exact ⟨by simp [cached, (mem_getActiveKeys.1 hrw).2.2.1], rfl⟩
    · cases snap with
      | true => cases h
      | false => exact hi.keyLive k i h
  · change Fed _ _ (s.registry.updateKeys parses (watchKeys snap s.now s.store.keys)).keysByID _ _
    rw [hr]
    refine hi.keyFed.deliver rfl ?_ (fun k hk => (mem_getActiveKeys.1 hk).1) hi.keyRows
    simp [Message.keys, hw]
  · intro l hl
    cases hl
    rfl

theorem KeyInv.deliverAPIKeys (snap : Bool) : KeyInv parses (deliverAPIKeys snap s) := by
  have hr := APIKeyRegistry.updateKeys_eq (watchAPIKeys snap s.store.apiKeys) s.apiKeys
  refine { hi with apiLive := ?_, apiFed := ?_, apiActive := ?_ }
  · intro k i h
    change (s.apiKeys.updateKeys (watchAPIKeys snap s.store.apiKeys)).keysByID k = some i at h
    rw [hr, Message.apply] at h
    rcases Map.mem_of_setAll_eq_some h with h | h
    · simp only [APIKeyRegistry.message, watchAPIKeys, convertAPIKeys, map_map, mem_map] at h
      obtain ⟨row, hrw, heq⟩ := h
      cases heq
      exact (mem_getActiveAPIKeys.1 hrw).2.1
    · cases snap with
      | true => cases h
      | false => exact hi.apiLive k i h
  · change Fed _ _ (s.apiKeys.updateKeys (watchAPIKeys snap s.store.apiKeys)).keysByID _ _
    rw [hr]
    refine hi.apiFed.deliver rfl ?_ (fun k hk => (mem_getActiveAPIKeys.1 hk).1) hi.apiRows
    simp [Message.keys, APIKeyRegistry.message, watchAPIKeys, convertAPIKeys]
  · intro l hl
    cases hl
    rfl

theorem KeyInv.step {a : KeyAct} (hp : a.keyParses parses = true)
    (hs : keyStep cfg parses s a = some s') : KeyInv parses s' := by
  cases a with simp only [keyStep] at hs
  | op o =>
    cases hs
    have he := exec_credentials cfg s.now s.store o hp
    exact { hi with
      keyRows := he.keys.valid hi.keyRows
      apiRows := he.apiKeys.valid hi.apiRows
      keyFed := hi.keyFed.write he.keys
      apiFed := hi.apiFed.write he.apiKeys }
  | tick d => cases hs; exact { hi with }
  | keysSnapshot => cases hs; exact { hi.deliverKeys true with }
  | apiKeysSnapshot => cases hs; exact { hi.deliverAPIKeys true with }
  | keysDelta =>
    split at hs <;> cases hs
    exact { hi.deliverKeys false with }
  | apiKeysDelta =>
    split at hs <;> cases hs
    exact { hi.deliverAPIKeys false with }

/-! ## When a revocation has reached the gateway -/

theorem KeyInv.keysAgree_iff {l : KeyLoad} (hl : s.keyLoad = some l) : KeysAgree s.now s.registry l ↔ NoneRevoked l := by
  have hs := hi.keyFed.synced hl
  have ha := hi.keyActive l hl
  unfold KeysAgree
  simp only [KeyRegistry.succeedsExpiryAside_iff hi.keyLive]
  refine hs.agree_iff (fun r => unexpired l.time r = true) (fun r => r.isActive = true) ?_ ?_
  · intro r hr
    rw [ha] at hr
    exact (mem_getActiveKeys.1 hr).1
  · intro r hr hun
    rw [ha, mem_getActiveKeys]
    constructor
    · exact fun h => h.2.1
    · exact fun h => ⟨hr, h, (hs.valid.good r hr).1.1 h, hun⟩

theorem KeyInv.apiKeysAgree_iff {l : APIKeyLoad} (hl : s.apiLoad = some l) : APIKeysAgree s.apiKeys l ↔ NoneRevokedAPI l := by
  have hs := hi.apiFed.synced hl
  have ha := hi.apiActive l hl
  have hif := hs.agree_iff (fun _ => True) (fun r => r.isActive = true)
    (fun r hr => by rw [ha] at hr; exact (mem_getActiveAPIKeys.1 hr).1)
    (fun r hr _ => by
      rw [ha, mem_getActiveAPIKeys]
      exact ⟨fun h => h.2.1, fun h => ⟨hr, h, (hs.valid.good r hr).1 h⟩⟩)
  unfold APIKeysAgree NoneRevokedAPI
  simp only [APIKeyRegistry.lookup_isSome_iff hi.apiLive]
  simpa using hif

end

/-- **When the registries are right**: iff no key sent since the last snapshot had been revoked by the time of the last load. -/
theorem registries_agree_iff (cfg : Config) (parses : GoStr → GoStr → Bool) (as : List KeyAct) (s : KeyState)
    (hparse : Along (keyStep cfg parses) (fun _ a => a.keyParses parses = true) KeyState.init as)
    (hrun : run (keyStep cfg parses) KeyState.init as = some s) :
    (∀ l, s.keyLoad = some l → (KeysAgree s.now s.registry l ↔ NoneRevoked l)) ∧
      (∀ l, s.apiLoad = some l → (APIKeysAgree s.apiKeys l ↔ NoneRevokedAPI l)) := by
  have hi : KeyInv parses s := run_invariant_along (KeyInv parses) (fun _ _ _ hi hp hs => hi.step hp hs) KeyInv.init hparse hrun
  exact ⟨fun l hl => hi.keysAgree_iff hl, fun l hl => hi.apiKeysAgree_iff hl⟩

def demoKey : KeyInput := ⟨str "key-1", str "ES256", List.replicate 50 65, none⟩

def connectRun : List KeyAct :=
  [.op (.createTenant (str "acme") (str "uuid-1") none true), .op (.createKey (str "acme") demoKey),
   .op (.createAPIKey (str "acme") (str "pk_1") (str "web")), .keysSnapshot, .apiKeysSnapshot]

def revokeRun : List KeyAct :=
  connectRun ++ [.op (.revokeKey (str "acme") (str "key-1")), .op (.revokeAPIKey (str "acme") (str "pk_1")),
    .keysDelta, .apiKeysDelta]

/-- A second key by a delta, then a revocation of the first, a new stream, and a third key by a delta. -/
def rotateRun : List KeyAct :=
  connectRun ++ [.op (.createKey (str "acme") { demoKey with keyID := str "key-2" }), .keysDelta,
    .op (.revokeKey (str "acme") (str "key-1")), .keysSnapshot,
    .op (.createKey (str "acme") { demoKey with keyID := str "key-3" }), .keysDelta,
    .op (.revokeAPIKey (str "acme") (str "pk_1")), .apiKeysSnapshot,
    .op (.createAPIKey (str "acme") (str "pk_2") (str "web")), .apiKeysDelta]

theorem registries_agree_iff_connectRun :
    ∃ s l l', run (keyStep demoConfig fun _ _ => true) KeyState.init rotateRun = some s ∧ s.keyLoad = some l ∧
      s.apiLoad = some l' ∧ l.active.map TenantKey.keyID = [str "key-2", str "key-3"] ∧
      l'.active.map APIKey.keyID = [str "pk_2"] ∧ KeysAgree s.now s.registry l ∧ APIKeysAgree s.apiKeys l' := by
  obtain ⟨s, hs, l, hl, l', hl', hactive, hactive', hnone, hnone'⟩ :
      ∃ s, run (keyStep demoConfig fun _ _ => true) KeyState.init rotateRun = some s ∧
        ∃ l, s.keyLoad = some l ∧ ∃ l', s.apiLoad = some l' ∧
          l.active.map TenantKey.keyID = [str "key-2", str "key-3"] ∧ l'.active.map APIKey.keyID = [str "pk_2"] ∧
          l.table.all (fun row => row.keyID ∉ l.since || row.isActive) = true ∧
          l'.table.all (fun row => row.keyID ∉ l'.since || row.isActive) = true :=
    ⟨_, rfl, _, rfl, _, rfl, by decide +kernel, by decide +kernel, by decide +kernel, by decide +kernel⟩
  obtain ⟨hkeys, hapi⟩ := registries_agree_iff demoConfig (fun _ _ => true) rotateRun s (by decide +kernel) hs
  refine ⟨s, l, l', hs, hl, hl', hactive, hactive', (hkeys l hl).2 fun row hrow _ hsent => ?_,
    (hapi l' hl').2 fun row hrow hsent => ?_⟩
  · simpa [hsent] using all_eq_true.1 hnone row hrow
  · simpa [hsent] using all_eq_true.1 hnone' row hrow

/-- **Bug**: after a revocation has been applied, the signing key still verifies and the API key still looks up. -/
theorem revoked_keys_stay_accepted : ∃ s, run (keyStep demoConfig fun _ _ => true) KeyState.init revokeRun = some s ∧
      (∃ l, s.keyLoad = some l ∧ l.active = [] ∧
        (s.registry.getKey s.now (str "key-1")).toOption.isSome = true ∧ ¬KeysAgree s.now s.registry l) ∧
      (∃ l, s.apiLoad = some l ∧ l.active = [] ∧
        (s.apiKeys.lookup (str "pk_1")).isSome = true ∧ ¬APIKeysAgree s.apiKeys l) := by
  refine ⟨_, rfl, ⟨_, rfl, rfl, by decide, ?_⟩, _, rfl, rfl, by decide, ?_⟩
  · intro h
    exact absurd ((h (str "key-1") (by decide)).1 (by decide)) (by decide)
  · intro h
    exact absurd ((h (str "pk_1")).1 (by decide)) (by decide)

end Sukko.ProvApi
