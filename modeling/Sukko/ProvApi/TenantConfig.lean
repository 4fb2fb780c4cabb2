import Sukko.Lib.Replica
import Sukko.Provisioning.Store
/-
# Tenant configuration on the gateway

The wire form of channel rules has the fields of the stored form, so one type stands for both.
-/

namespace Sukko.ProvApi
open Provisioning Replica

/-! ## Messages -/

structure TenantConfig where
  tenantSlug : GoStr
  tenantUuid : GoStr
  previousSlug : GoStr
  channelRules : Option ChannelRules
  routingRules : List RoutingRule
deriving DecidableEq

structure WatchTenantConfigResponse where
  isSnapshot : Bool
  tenants : List TenantConfig
  removedTenantSlugs : List GoStr
deriving DecidableEq

def getChannelRules (st : Store) (slug : GoStr) : Except Err ChannelRules := do
  let tenant ← Tenants.getBySlug st.tenants slug
  ChannelRulesT.get st.channelRules tenant.id

def getRoutingRules (st : Store) (slug : GoStr) : Except Err (List RoutingRule) := do
  let tenant ← Tenants.getBySlug st.tenants slug
  return RoutingRulesT.getAll st.routingRules tenant.id

def int32 (n : Int) : Int := n.bmod (2 ^ 32)

def convertRoutingRules (rules : List RoutingRule) : List RoutingRule :=
  rules.map fun r => { r with priority := int32 r.priority }

def heldSlug (hold now : Time) (t : Tenant) : GoStr :=
  if 0 < hold && t.renameState == some .complete && t.renamedAt.any (fun at_ => now - at_ < hold)
  then t.previousSlug.getD [] else []

def loadTenantConfig (hold now : Time) (st : Store) (t : Tenant) : TenantConfig where
  tenantSlug := t.slug
  tenantUuid := t.id
  previousSlug := heldSlug hold now t
  channelRules := (getChannelRules st t.slug).toOption
  routingRules := convertRoutingRules ((getRoutingRules st t.slug).toOption.getD [])

/-- See `provisioning/grpcserver/server.go:558`. -/
def loadTenantConfigs (hold now : Time) (limit : Nat) (st : Store) : List TenantConfig :=
  ((Tenants.list st.tenants limit).filter (·.status == .active)).map (loadTenantConfig hold now st)

/-! ## The provider -/

structure Provider where
  channelRules : Map GoStr ChannelRules
  tenantUUIDBySlug : Map GoStr GoStr
  slugByUUID : Map GoStr GoStr
  routingSnapshots : Map GoStr (List RoutingRule)
  tenantUUIDsPresent : Bool
  snapshotReceived : Bool

namespace Provider

def empty : Provider := ⟨Map.empty, Map.empty, Map.empty, Map.empty, false, false⟩

def removeTenant (p : Provider) (slug : GoStr) : Provider :=
  { p with
      channelRules := p.channelRules.delete slug
      slugByUUID := match p.tenantUUIDBySlug slug with
        | some uuid => p.slugByUUID.delete uuid
        | none => p.slugByUUID
      tenantUUIDBySlug := p.tenantUUIDBySlug.delete slug
      routingSnapshots := p.routingSnapshots.delete slug }

/-- The rules a routing snapshot keeps: patterns normalized, invalid patterns and rules without an
ingress topic skipped. -/
def routable (rules : List RoutingRule) : List RoutingRule :=
  rules.filterMap fun r =>
    let pattern := Routing.normalizePattern r.pattern
    match Routing.matchRoutingPattern pattern (str "x") with
    | .error _ => none
    | .ok _ => if r.ingressTopic = [] then none else some { r with pattern }

def addTenant (p : Provider) (tc : TenantConfig) : Provider :=
  let own := if tc.tenantUuid = [] then p.tenantUUIDBySlug
    else p.tenantUUIDBySlug.set tc.tenantSlug tc.tenantUuid
  { p with
      channelRules := match tc.channelRules with
        | some rules => p.channelRules.set tc.tenantSlug rules
        | none => p.channelRules
      tenantUUIDBySlug := if tc.tenantUuid = [] ∨ tc.previousSlug = [] then own
        else own.set tc.previousSlug tc.tenantUuid
      slugByUUID := if tc.tenantUuid = [] then p.slugByUUID else p.slugByUUID.set tc.tenantUuid tc.tenantSlug
      routingSnapshots := p.routingSnapshots.set tc.tenantSlug (routable tc.routingRules) }

/-- See `shared/provapi/channel_rules_provider.go:284`. -/
def updateTenantConfigs (resp : WatchTenantConfigResponse) (p : Provider) : Provider :=
  let fresh := { p with
    channelRules := Map.empty, tenantUUIDBySlug := Map.empty, slugByUUID := Map.empty
    routingSnapshots := Map.empty }
  let p := if resp.isSnapshot then fresh else p
  let p := resp.removedTenantSlugs.foldl removeTenant p
  let p := resp.tenants.foldl addTenant p
  let sawUUID := resp.tenants.any (·.tenantUuid != [])
  { p with
      tenantUUIDsPresent :=
        if sawUUID then true
        else if resp.isSnapshot then resp.tenants.isEmpty
        else p.tenantUUIDsPresent
      snapshotReceived := resp.isSnapshot || p.snapshotReceived }

def getChannelRules (p : Provider) (tenant : GoStr) : Option ChannelRules := p.channelRules tenant
def getRoutingSnapshot (p : Provider) (tenant : GoStr) : Option (List RoutingRule) := p.routingSnapshots tenant
def resolveTenantUUID (p : Provider) (slug : GoStr) : Option GoStr := (p.tenantUUIDBySlug slug).filter (· ≠ [])
def resolveTenantSlug (p : Provider) (uuid : GoStr) : Option GoStr := (p.slugByUUID uuid).filter (· ≠ [])

end Provider

/-! ## The four maps are replicas -/

namespace TenantConfig

def aliases (tc : TenantConfig) : List GoStr :=
  if tc.tenantUuid = [] then []
  else if tc.previousSlug = [] then [tc.tenantSlug] else [tc.tenantSlug, tc.previousSlug]

def rulesWrites (tc : TenantConfig) : List (GoStr × ChannelRules) :=
  (tc.channelRules.map (tc.tenantSlug, ·)).toList

def uuidWrites (tc : TenantConfig) : List (GoStr × GoStr) := tc.aliases.map (·, tc.tenantUuid)

def slugWrites (tc : TenantConfig) : List (GoStr × GoStr) :=
  if tc.tenantUuid = [] then [] else [(tc.tenantUuid, tc.tenantSlug)]

def routingWrites (tc : TenantConfig) : List (GoStr × List RoutingRule) :=
  [(tc.tenantSlug, Provider.routable tc.routingRules)]

end TenantConfig

open TenantConfig

namespace Provider

structure Merged (p₀ p : Provider) (tcs : List TenantConfig) : Prop where
  channelRules : p.channelRules = p₀.channelRules.setAll (tcs.flatMap rulesWrites)
  tenantUUIDBySlug : p.tenantUUIDBySlug = p₀.tenantUUIDBySlug.setAll (tcs.flatMap uuidWrites)
  slugByUUID : p.slugByUUID = p₀.slugByUUID.setAll (tcs.flatMap slugWrites)
  routingSnapshots : p.routingSnapshots = p₀.routingSnapshots.setAll (tcs.flatMap routingWrites)

theorem addTenant_merged (p : Provider) (tc : TenantConfig) : Merged p (p.addTenant tc) [tc] := by
  refine ⟨?_, ?_, ?_, rfl⟩
  · unfold addTenant
    cases h : tc.channelRules <;> simp [rulesWrites, h]
  · by_cases hu : tc.tenantUuid = []
    · simp [addTenant, uuidWrites, aliases, hu]
    · by_cases hp : tc.previousSlug = [] <;> simp [addTenant, uuidWrites, aliases, hu, hp]
  · by_cases hu : tc.tenantUuid = [] <;> simp [addTenant, slugWrites, hu]

theorem Merged.trans {p q r : Provider} {tcs ucs : List TenantConfig} (h : Merged p q tcs) (h' : Merged q r ucs) :
    Merged p r (tcs ++ ucs) := by
  constructor
  · rw [h'.channelRules, h.channelRules, List.flatMap_append, Map.setAll_append]
  · rw [h'.tenantUUIDBySlug, h.tenantUUIDBySlug, List.flatMap_append, Map.setAll_append]
  · rw [h'.slugByUUID, h.slugByUUID, List.flatMap_append, Map.setAll_append]
  · rw [h'.routingSnapshots, h.routingSnapshots, List.flatMap_append, Map.setAll_append]

theorem foldl_addTenant_merged (tcs : List TenantConfig) (p : Provider) : Merged p (tcs.foldl addTenant p) tcs := by
  induction tcs generalizing p with
  | nil => exact ⟨rfl, rfl, rfl, rfl⟩
  | cons tc tcs ih => exact (addTenant_merged p tc).trans (ih (p.addTenant tc))

/-- What a message without removals does to the four maps. -/
structure Applied (snapshot : Bool) (tcs : List TenantConfig) (p p' : Provider) : Prop where
  channelRules : p'.channelRules = (Message.ofItems rulesWrites snapshot tcs).apply p.channelRules
  tenantUUIDBySlug : p'.tenantUUIDBySlug = (Message.ofItems uuidWrites snapshot tcs).apply p.tenantUUIDBySlug
  slugByUUID : p'.slugByUUID = (Message.ofItems slugWrites snapshot tcs).apply p.slugByUUID
  routingSnapshots : p'.routingSnapshots = (Message.ofItems routingWrites snapshot tcs).apply p.routingSnapshots

theorem updateTenantConfigs_applied (snapshot : Bool) (tcs : List TenantConfig) (p : Provider) :
    Applied snapshot tcs p (p.updateTenantConfigs ⟨snapshot, tcs, []⟩) := by
  cases snapshot with
  | true =>
    have h := foldl_addTenant_merged tcs { p with
      channelRules := Map.empty, tenantUUIDBySlug := Map.empty, slugByUUID := Map.empty
      routingSnapshots := Map.empty }
    exact ⟨h.channelRules, h.tenantUUIDBySlug, h.slugByUUID, h.routingSnapshots⟩
  | false =>
    have h := foldl_addTenant_merged tcs p
    exact ⟨h.channelRules, h.tenantUUIDBySlug, h.slugByUUID, h.routingSnapshots⟩

end Provider
end Sukko.ProvApi
