import Sukko.Lib.Replica
import Sukko.Provisioning.Store
import Sukko.Shared.Auth
/-
# The gateway's key registries
-/

namespace Sukko.ProvApi
open Provisioning Replica Auth

/-! ## Messages -/

structure KeyMsg where
  keyId : GoStr
  tenantUuid : GoStr
  algorithm : GoStr
  publicKeyPem : GoStr
  isActive : Bool
  expiresAtUnix : Int
deriving DecidableEq

structure WatchKeysResponse where
  isSnapshot : Bool
  keys : List KeyMsg
  removedKeyIds : List GoStr
deriving DecidableEq

def unix (t : Time) : Int := t / 1000000000

def convertKey (k : TenantKey) : KeyMsg where
  keyId := k.keyID
  tenantUuid := k.tenantID
  algorithm := k.algorithm
  publicKeyPem := k.publicKey
  isActive := k.revokedAt.isNone
  expiresAtUnix := (k.expiresAt.map unix).getD 0

def convertKeys (keys : List TenantKey) : List KeyMsg := keys.map convertKey

structure APIKeyInfo where
  keyID : GoStr
  tenantID : GoStr
  name : GoStr
  isActive : Bool
deriving DecidableEq

structure WatchAPIKeysResponse where
  isSnapshot : Bool
  apiKeys : List APIKeyInfo
  removedKeyIds : List GoStr
deriving DecidableEq

def convertAPIKeys (keys : List APIKey) : List APIKeyInfo :=
  keys.map fun k => ⟨k.keyID, k.tenantID, k.name, k.isActive⟩

/-! ## The signing-key registry -/

/-- See `shared/provapi/key_registry.go:352`. -/
def protoToKeyInfo (parses : GoStr → GoStr → Bool) (ki : KeyMsg) : Option KeyInfo :=
  if parses ki.publicKeyPem ki.algorithm then
    some { keyID := ki.keyId, tenantID := ki.tenantUuid, algorithm := ki.algorithm
           publicKeyPEM := ki.publicKeyPem, isActive := ki.isActive
           expiresAt := if ki.expiresAtUnix > 0 then some (ki.expiresAtUnix * 1000000000) else none
           revokedAt := none }
  else none

structure KeyRegistry where
  keysByID : Map GoStr KeyInfo
  keysByTenant : GoStr → List KeyInfo

namespace KeyRegistry

def empty : KeyRegistry := ⟨Map.empty, fun _ => []⟩

def removeKey (r : KeyRegistry) (keyID : GoStr) : KeyRegistry :=
  match r.keysByID keyID with
  | none => r
  | some existing =>
    { keysByID := r.keysByID.delete keyID
      keysByTenant := Function.update r.keysByTenant existing.tenantID
        ((r.keysByTenant existing.tenantID).eraseP (·.keyID == keyID)) }

def replaceOrAppend (keys : List KeyInfo) (info : KeyInfo) : List KeyInfo :=
  match keys.findIdx? (·.keyID == info.keyID) with
  | some i => keys.set i info
  | none => keys ++ [info]

def upsertKey (isSnapshot : Bool) (r : KeyRegistry) (info : KeyInfo) : KeyRegistry :=
  let tenantKeys := r.keysByTenant info.tenantID
  { keysByID := r.keysByID.set info.keyID info
    keysByTenant := Function.update r.keysByTenant info.tenantID
      (if isSnapshot then tenantKeys ++ [info] else replaceOrAppend tenantKeys info) }

/-- See `shared/provapi/key_registry.go:290`. -/
def updateKeys (parses : GoStr → GoStr → Bool) (resp : WatchKeysResponse) (r : KeyRegistry) : KeyRegistry :=
  let r := if resp.isSnapshot then empty else r
  let r := resp.removedKeyIds.foldl removeKey r
  (resp.keys.filterMap (protoToKeyInfo parses)).foldl (upsertKey resp.isSnapshot) r

/-- See `shared/provapi/key_registry.go:150`. -/
def getKey (now : Time) (r : KeyRegistry) (keyID : GoStr) : Except KeyErr KeyInfo :=
  match r.keysByID keyID with
  | none => .error .notFound
  | some key =>
    if !key.isActive then .error .notFound
    else if key.revokedAt.isSome then .error .revoked
    else if key.expiresAt.any (· < now) then .error .expired
    else .ok key

def succeedsExpiryAside (now : Time) (r : KeyRegistry) (keyID : GoStr) : Bool :=
  match r.getKey now keyID with
  | .ok _ | .error .expired => true
  | .error _ => false

/-! ### The cache by id is a replica -/

def message (parses : GoStr → GoStr → Bool) (resp : WatchKeysResponse) : Message GoStr KeyInfo where
  snapshot := resp.isSnapshot
  removed := resp.removedKeyIds
  writes := (resp.keys.filterMap (protoToKeyInfo parses)).map fun i => (i.keyID, i)

theorem removeKey_keysByID (r : KeyRegistry) (k : GoStr) : (r.removeKey k).keysByID = r.keysByID.delete k := by
  unfold removeKey
  split
  · rename_i h
    funext k'
    by_cases hk : k' = k <;> simp [Map.delete, hk, h]
  · rfl

theorem foldl_removeKey_keysByID (ids : List GoStr) (r : KeyRegistry) :
    (ids.foldl removeKey r).keysByID = r.keysByID.deleteAll ids := by
  induction ids generalizing r with
  | nil => rfl
  | cons k ids ih => rw [List.foldl_cons, ih, removeKey_keysByID]; rfl

theorem foldl_upsertKey_keysByID (snap : Bool) (infos : List KeyInfo) (r : KeyRegistry) :
    (infos.foldl (upsertKey snap) r).keysByID = r.keysByID.setAll (infos.map fun i => (i.keyID, i)) := by
  induction infos generalizing r with
  | nil => rfl
  | cons i infos ih => rw [List.foldl_cons, ih]; rfl

theorem updateKeys_keysByID (parses : GoStr → GoStr → Bool) (resp : WatchKeysResponse) (r : KeyRegistry) :
    (r.updateKeys parses resp).keysByID = (message parses resp).apply r.keysByID := by
  unfold updateKeys Message.apply message
  rw [foldl_upsertKey_keysByID, foldl_removeKey_keysByID]
  cases resp.isSnapshot <;> rfl

def Live (i : KeyInfo) : Prop := i.isActive = true ∧ i.revokedAt = none

theorem succeedsExpiryAside_iff {r : KeyRegistry} (hl : ∀ k i, r.keysByID k = some i → Live i)
    (now : Time) (k : GoStr) : r.succeedsExpiryAside now k = true ↔ (r.keysByID k).isSome = true := by
  unfold succeedsExpiryAside getKey
  cases h : r.keysByID k with
  | none => simp
  | some i =>
    obtain ⟨ha, hr⟩ := hl k i h
    simp only [ha, hr, Bool.not_true, Bool.false_eq_true, if_false, Option.isSome_none]
    by_cases he : (i.expiresAt.any (· < now)) = true <;> simp [he]

end KeyRegistry

/-! ## The API-key registry -/

structure APIKeyRegistry where
  keysByID : Map GoStr APIKeyInfo

namespace APIKeyRegistry

def empty : APIKeyRegistry := ⟨Map.empty⟩

def message (resp : WatchAPIKeysResponse) : Message GoStr APIKeyInfo where
  snapshot := resp.isSnapshot
  removed := resp.removedKeyIds
  writes := resp.apiKeys.map fun i => (i.keyID, i)

/-- See `shared/provapi/api_key_registry.go:191`. -/
def updateKeys (resp : WatchAPIKeysResponse) (r : APIKeyRegistry) : APIKeyRegistry :=
  let m := if resp.isSnapshot then Map.empty else r.keysByID
  let m := resp.removedKeyIds.foldl Map.delete m
  ⟨resp.apiKeys.foldl (fun m ki => m.set ki.keyID ki) m⟩

def lookup (r : APIKeyRegistry) (apiKey : GoStr) : Option APIKeyInfo :=
  (r.keysByID apiKey).filter (·.isActive)

theorem updateKeys_eq (resp : WatchAPIKeysResponse) (r : APIKeyRegistry) :
    (r.updateKeys resp).keysByID = (message resp).apply r.keysByID := by
  unfold updateKeys Message.apply message Map.setAll Map.deleteAll
  rw [List.foldl_map]

theorem lookup_isSome_iff {r : APIKeyRegistry} (ha : ∀ k i, r.keysByID k = some i → i.isActive = true)
    (k : GoStr) : (r.lookup k).isSome = true ↔ (r.keysByID k).isSome = true := by
  unfold lookup
  cases h : r.keysByID k with
  | none => simp
  | some i => simp [ha k i h]

end APIKeyRegistry
end Sukko.ProvApi
