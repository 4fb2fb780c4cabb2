import Sukko.Shared.Routing
/-
# The provisioning database

Columns no modelled function reads are left out.
-/

namespace Sukko.Provisioning

inductive Status
  | active
  | suspended
  | deprovisioning
  | deleted
deriving DecidableEq

inductive RenameState
  | pending
  | complete
deriving DecidableEq

structure Tenant where
  id : GoStr
  slug : GoStr
  status : Status
  previousSlug : Option GoStr
  renameState : Option RenameState
  renamedAt : Option Time
  createdAt : Time
  deprovisionAt : Option Time
  deletedAt : Option Time
deriving DecidableEq

structure TenantKey where
  keyID : GoStr
  tenantID : GoStr
  algorithm : GoStr
  publicKey : GoStr
  isActive : Bool
  expiresAt : Option Time
  revokedAt : Option Time
deriving DecidableEq

structure APIKey where
  keyID : GoStr
  tenantID : GoStr
  name : GoStr
  isActive : Bool
  createdAt : Time
  revokedAt : Option Time
deriving DecidableEq

structure ChannelRules where
  «public» : List GoStr
  groupMappings : List (GoStr × List GoStr)
  default : List GoStr
  publishPublic : List GoStr
  publishGroupMappings : List (GoStr × List GoStr)
  publishDefault : List GoStr
deriving DecidableEq

structure RoutingRule where
  pattern : GoStr
  ingressTopic : GoStr
  egressTopics : List GoStr
  priority : Int
deriving DecidableEq

structure Store where
  tenants : List Tenant
  keys : List TenantKey
  apiKeys : List APIKey
  channelRules : List (GoStr × ChannelRules)
  routingRules : List (GoStr × RoutingRule)
deriving DecidableEq

def Store.empty : Store := ⟨[], [], [], [], []⟩

inductive Err
  | tenantNotFound
  | tenantDeleted
  | tenantNotActive
  | slugInvalid
  | slugReserved
  | slugUnchanged
  | slugAlreadyTaken
  | slugRenameInProgress
  | casFailed
  | keyInvalid
  | keyAlreadyExists
  | keyNotFound
  | keyNotOwnedByTenant
  | channelRulesInvalid
  | channelRulesNotFound
  | routingRulesInvalid
  | kafka
deriving DecidableEq

def updateWhere {α : Type} (p : α → Bool) (f : α → α) (rows : List α) : List α :=
  rows.map fun r => if p r then f r else r

/-! ## Tenants -/

namespace Tenants

/-- See `provisioning/repository/tenant.go:92`. -/
def create (now : Time) (rows : List Tenant) (id slug : GoStr) : Except Err (List Tenant) :=
  if rows.any (·.slug == slug) then .error .slugAlreadyTaken
  else .ok (rows ++ [⟨id, slug, .active, none, none, none, now, none, none⟩])

/-- See `provisioning/repository/tenant.go:136`. -/
def getBySlug (rows : List Tenant) (slug : GoStr) : Except Err Tenant :=
  match rows.find? fun t => t.slug == slug && t.deletedAt.isNone with
  | some t => .ok t
  | none => .error .tenantNotFound

def matchesWithGrace (hold : Time) (now : Time) (slug : GoStr) (t : Tenant) : Bool :=
  t.deletedAt.isNone &&
    (t.slug == slug ||
      (t.previousSlug == some slug && t.status == .active && t.renameState == some .complete &&
        t.renamedAt.any fun at_ => now - hold < at_))

/-- See `provisioning/repository/tenant.go:234`. -/
def updateSlug (now : Time) (rows : List Tenant) (id newSlug : GoStr) : Except Err (List Tenant) :=
  if rows.any fun t => t.id != id && t.slug == newSlug then .error .slugAlreadyTaken
  else if rows.any (·.id == id) then
    .ok (updateWhere (·.id == id)
      (fun t => { t with slug := newSlug, renameState := some .complete
                         previousSlug := some t.slug, renamedAt := some now }) rows)
  else .error .tenantNotFound

/-- See `provisioning/repository/tenant.go:262`. -/
def setRenameState (rows : List Tenant) (id : GoStr) (st : RenameState) (previousSlug : GoStr) :
    Except Err (List Tenant) :=
  let free : Tenant → Bool := fun t => t.id == id && t.renameState != some .pending
  if rows.any free then
    .ok (updateWhere free (fun t => { t with renameState := some st, previousSlug := some previousSlug }) rows)
  else .error .casFailed

/-- See `provisioning/repository/tenant.go:286`. -/
def clearRenameState (rows : List Tenant) (id : GoStr) : List Tenant :=
  updateWhere (·.id == id)
    (fun t => { t with renameState := none, previousSlug := none, renamedAt := none }) rows

def list (rows : List Tenant) (limit : Nat) : List Tenant :=
  ((rows.filter (·.status != .deleted)).insertionSort fun a b => b.createdAt ≤ a.createdAt).take limit

def statusSources : Status → List Status
  | .suspended => [.active]
  | .active => [.suspended]
  | .deprovisioning => [.active, .suspended]
  | .deleted => [.active, .suspended, .deprovisioning]

/-- See `provisioning/repository/tenant.go:393`. -/
def updateStatus (now : Time) (rows : List Tenant) (id : GoStr) (st : Status) : Except Err (List Tenant) :=
  let from_ : Tenant → Bool := fun t => t.id == id && (statusSources st).contains t.status
  if rows.any from_ then
    .ok (updateWhere from_
      (fun t => { t with status := st, deletedAt := if st = .deleted then some now else t.deletedAt }) rows)
  else .error .tenantNotFound

/-- See `provisioning/repository/tenant.go:450`. -/
def setDeprovisionAt (rows : List Tenant) (id : GoStr) (at_ : Time) : List Tenant :=
  updateWhere (fun t => t.id == id && t.status == .deprovisioning)
    (fun t => { t with deprovisionAt := some at_ }) rows

def getTenantsForDeletion (now : Time) (rows : List Tenant) : List Tenant :=
  rows.filter fun t => t.status == .deprovisioning && t.deprovisionAt.any (· ≤ now)

end Tenants

/-! ## Signing keys -/

namespace Keys

/-- See `provisioning/repository/key.go:26`. -/
def create (rows : List TenantKey) (key : TenantKey) : Except Err (List TenantKey) :=
  if rows.any (·.keyID == key.keyID) then .error .keyAlreadyExists
  else .ok (rows ++ [{ key with isActive := true, revokedAt := none }])

/-- See `provisioning/repository/key.go:58`. -/
def get (rows : List TenantKey) (keyID : GoStr) : Except Err TenantKey :=
  match rows.find? (·.keyID == keyID) with
  | some k => .ok k
  | none => .error .keyNotFound

/-- See `provisioning/repository/key.go:139`. -/
def revoke (now : Time) (rows : List TenantKey) (keyID : GoStr) : Except Err (List TenantKey) :=
  if rows.any fun k => k.keyID == keyID && k.isActive then
    .ok (updateWhere (fun k => k.keyID == keyID && k.isActive)
      (fun k => { k with isActive := false, revokedAt := some now }) rows)
  else .error .keyNotFound

/-- See `provisioning/repository/key.go:160`. -/
def revokeAllForTenant (now : Time) (rows : List TenantKey) (tenantID : GoStr) : List TenantKey :=
  updateWhere (fun k => k.tenantID == tenantID && k.isActive)
    (fun k => { k with isActive := false, revokedAt := some now }) rows

def getActiveKeys (now : Time) (rows : List TenantKey) : List TenantKey :=
  rows.filter fun k => k.isActive && k.revokedAt.isNone && k.expiresAt.all fun e => now < e

end Keys

/-! ## API keys -/

namespace APIKeys

/-- See `provisioning/repository/api_key.go:26`. -/
def create (rows : List APIKey) (key : APIKey) : Except Err (List APIKey) :=
  if rows.any (·.keyID == key.keyID) then .error .keyAlreadyExists
  else .ok (rows ++ [{ key with isActive := true, revokedAt := none }])

/-- See `provisioning/repository/api_key.go:53`. -/
def get (rows : List APIKey) (keyID : GoStr) : Except Err APIKey :=
  match rows.find? (·.keyID == keyID) with
  | some k => .ok k
  | none => .error .keyNotFound

/-- See `provisioning/repository/api_key.go:130`. -/
def revoke (now : Time) (rows : List APIKey) (keyID : GoStr) : Except Err (List APIKey) :=
  if rows.any fun k => k.keyID == keyID && k.isActive then
    .ok (updateWhere (fun k => k.keyID == keyID && k.isActive)
      (fun k => { k with isActive := false, revokedAt := some now }) rows)
  else .error .keyNotFound

def listByTenant (rows : List APIKey) (tenantID : GoStr) (limit : Nat) : List APIKey :=
  ((rows.filter (·.tenantID == tenantID)).insertionSort fun a b => b.createdAt ≤ a.createdAt).take limit

def getActiveAPIKeys (rows : List APIKey) : List APIKey :=
  rows.filter fun k => k.isActive && k.revokedAt.isNone

end APIKeys

/-! ## Channel rules and routing rules -/

namespace ChannelRulesT

/-- See `provisioning/repository/channel_rules.go:49`. -/
def get (rows : List (GoStr × ChannelRules)) (tenantID : GoStr) : Except Err ChannelRules :=
  match rows.find? (·.1 == tenantID) with
  | some r => .ok r.2
  | none => .error .channelRulesNotFound

/-- See `provisioning/repository/channel_rules.go:90`. -/
def update (rows : List (GoStr × ChannelRules)) (tenantID : GoStr) (rules : ChannelRules) :
    List (GoStr × ChannelRules) :=
  if rows.any (·.1 == tenantID) then updateWhere (·.1 == tenantID) (fun _ => (tenantID, rules)) rows
  else rows ++ [(tenantID, rules)]

/-- See `provisioning/repository/channel_rules.go:114`. -/
def delete (rows : List (GoStr × ChannelRules)) (tenantID : GoStr) :
    Except Err (List (GoStr × ChannelRules)) :=
  if rows.any (·.1 == tenantID) then .ok (rows.filter (·.1 != tenantID))
  else .error .channelRulesNotFound

end ChannelRulesT

namespace RoutingRulesT

def ofTenant (rows : List (GoStr × RoutingRule)) (tenantID : GoStr) : List RoutingRule :=
  ((rows.filter (·.1 == tenantID)).map Prod.snd).insertionSort fun a b => a.priority ≤ b.priority

/-- See `provisioning/repository/routing_rules.go:246`. -/
def getAll (rows : List (GoStr × RoutingRule)) (tenantID : GoStr) : List RoutingRule :=
  (ofTenant rows tenantID).filterMap fun r =>
    let pattern := Routing.normalizePattern r.pattern
    match Routing.matchRoutingPattern pattern (str "probe") with
    | .ok _ => some { r with pattern }
    | .error _ => none

def unique (rules : List RoutingRule) : Bool :=
  (rules.map (·.priority)).Nodup && (rules.map (·.pattern)).Nodup

def deleteAll (rows : List (GoStr × RoutingRule)) (tenantID : GoStr) : List (GoStr × RoutingRule) :=
  rows.filter (·.1 != tenantID)

/-- See `provisioning/repository/routing_rules.go:189`. -/
def replace (rows : List (GoStr × RoutingRule)) (tenantID : GoStr) (rules : List RoutingRule) :
    Except Err (List (GoStr × RoutingRule)) :=
  if unique rules then .ok (deleteAll rows tenantID ++ rules.map (tenantID, ·))
  else .error .routingRulesInvalid

/-- See `provisioning/repository/routing_rules.go:144`. -/
def add (rows : List (GoStr × RoutingRule)) (tenantID : GoStr) (rule : RoutingRule) :
    Except Err (List (GoStr × RoutingRule)) :=
  if unique (ofTenant rows tenantID ++ [rule]) then .ok (rows ++ [(tenantID, rule)])
  else .error .routingRulesInvalid

end RoutingRulesT
end Sukko.Provisioning
