import Sukko.Lib.GoString
import Sukko.Lib.Replica
import Sukko.Lib.Steps
/-
# The multi-tenant consumer pool

The shared consumer is told about new topics and topics to pause; a dedicated one gets its topics when it is created.

**franz-go boundary**: topics are never removed from a group consumer, and a paused topic stays paused until it is resumed,
which nothing in the repository does.
-/

namespace Sukko.Orchestration
open Replica

structure TenantTopics where
  tenantID : GoStr
  topics : List GoStr
deriving DecidableEq

structure SharedConsumer where
  consumed : Finset GoStr
  paused : Finset GoStr
deriving DecidableEq

structure DedicatedConsumer where
  id : Nat
  tenantID : GoStr
  topics : List GoStr
deriving DecidableEq

structure Pool where
  sharedConsumer : Option SharedConsumer
  sharedTopics : Finset GoStr
  blockedSharedTopics : Finset GoStr
  dedicatedConsumers : Map GoStr DedicatedConsumer
  dedicatedTopics : Map GoStr GoStr
  running : List DedicatedConsumer
  created : Nat

structure Refresh where
  shared : List GoStr
  dedicated : List TenantTopics
  sharedStarts : Bool
  dedicatedStarts : GoStr → Bool

inductive RefreshErr
  | sharedConsumer
deriving DecidableEq

namespace Pool

def new : Pool := ⟨none, ∅, ∅, Map.empty, Map.empty, [], 0⟩

/-! ## The shared consumer -/

structure Plan where
  newTopics : Finset GoStr
  toAdd : Finset GoStr
  toRemove : Finset GoStr
deriving DecidableEq

def unblock (p : Pool) (topics : List GoStr) : Pool :=
  { p with blockedSharedTopics := p.blockedSharedTopics ∩ topics.toFinset }

def plan (p : Pool) (topics : List GoStr) : Plan :=
  let newTopics := topics.toFinset \ p.blockedSharedTopics
  ⟨newTopics, newTopics \ p.sharedTopics, p.sharedTopics \ newTopics⟩

def startShared (p : Pool) (topics : Finset GoStr) : Pool := { p with sharedConsumer := some ⟨topics, ∅⟩ }
def publishTopics (p : Pool) (topics : Finset GoStr) : Pool := { p with sharedTopics := topics }

def addConsumeTopics (p : Pool) (topics : Finset GoStr) : Pool :=
  { p with sharedConsumer := p.sharedConsumer.map fun c => { c with consumed := c.consumed ∪ topics } }

def recordAdded (p : Pool) (topics : Finset GoStr) : Pool :=
  { p with sharedTopics := p.sharedTopics ∪ (topics \ p.blockedSharedTopics) }

def pauseFetchTopics (p : Pool) (topics : Finset GoStr) : Pool :=
  { p with sharedConsumer := p.sharedConsumer.map fun c => { c with paused := c.paused ∪ topics } }

def recordRemoved (p : Pool) (topics : Finset GoStr) : Pool := { p with sharedTopics := p.sharedTopics \ topics }

/-- See `server/orchestration/multitenant_pool.go:380`. -/
def updateSharedConsumer (p : Pool) (topics : List GoStr) (starts : Bool) : Pool × Option RefreshErr :=
  let p := p.unblock topics
  let plan := p.plan topics
  if p.sharedConsumer = none ∧ plan.newTopics = ∅ ∧ topics ≠ [] then (p, none)
  else if p.sharedConsumer = none ∧ plan.newTopics ≠ ∅ then
    if starts then ((p.startShared plan.newTopics).publishTopics plan.newTopics, none) else (p, some .sharedConsumer)
  else
    (((p.addConsumeTopics plan.toAdd).recordAdded plan.toAdd).pauseFetchTopics plan.toRemove |>.recordRemoved plan.toRemove,
      none)

/-! ## The dedicated consumers -/

def stopUnlisted (p : Pool) (tenants : List TenantTopics) : Pool :=
  let active := tenants.map TenantTopics.tenantID
  { p with
    dedicatedConsumers := fun tenantID => if tenantID ∈ active then p.dedicatedConsumers tenantID else none
    dedicatedTopics := fun topic => (p.dedicatedTopics topic).filter fun tenantID =>
      tenantID ∈ active || (p.dedicatedConsumers tenantID).isNone
    running := p.running.filter fun c => c.tenantID ∈ active || p.dedicatedConsumers c.tenantID ≠ some c }

def startDedicated (starts : GoStr → Bool) (p : Pool) (tenant : TenantTopics) : Pool :=
  if (p.dedicatedConsumers tenant.tenantID).isSome then p
  else if tenant.topics = [] then p
  else if !starts tenant.tenantID then p
  else
    let consumer : DedicatedConsumer := ⟨p.created, tenant.tenantID, tenant.topics⟩
    { p with
      dedicatedConsumers := p.dedicatedConsumers.set tenant.tenantID consumer
      dedicatedTopics := p.dedicatedTopics.setAll (tenant.topics.map fun t => (t, tenant.tenantID))
      running := p.running ++ [consumer]
      created := p.created + 1 }

def updateDedicatedConsumers (p : Pool) (tenants : List TenantTopics) (starts : GoStr → Bool) : Pool :=
  tenants.foldl (startDedicated starts) (p.stopUnlisted tenants)

/-! ## Refreshes and reports -/

/-- See `server/orchestration/multitenant_pool.go:297`. -/
def refreshTopics (p : Pool) (r : Refresh) : Pool × Option RefreshErr :=
  match p.updateSharedConsumer r.shared r.sharedStarts with
  | (p, some err) => (p, some err)
  | (p, none) => (p.updateDedicatedConsumers r.dedicated r.dedicatedStarts, none)

def refreshed (p : Pool) (r : Refresh) : Option Pool :=
  match p.refreshTopics r with
  | (p, none) => some p
  | (_, some _) => none

/-- See `server/orchestration/multitenant_pool.go:710`. -/
def handleBrokerDeletedTopic (p : Pool) (topic : GoStr) : Pool :=
  if topic ∈ p.sharedTopics then
    { p with sharedTopics := p.sharedTopics.erase topic, blockedSharedTopics := insert topic p.blockedSharedTopics }
  else { p with dedicatedTopics := p.dedicatedTopics.delete topic }

/-! ## The two halves do not touch each other -/

theorem startDedicated_shared (starts : GoStr → Bool) (p : Pool) (tenant : TenantTopics) :
    (p.startDedicated starts tenant).sharedConsumer = p.sharedConsumer ∧
      (p.startDedicated starts tenant).sharedTopics = p.sharedTopics ∧
      (p.startDedicated starts tenant).blockedSharedTopics = p.blockedSharedTopics := by
  unfold startDedicated
  split
  · exact ⟨rfl, rfl, rfl⟩
  · split
    · exact ⟨rfl, rfl, rfl⟩
    · split <;> exact ⟨rfl, rfl, rfl⟩

theorem updateDedicatedConsumers_shared (p : Pool) (tenants : List TenantTopics) (starts : GoStr → Bool) :
    (p.updateDedicatedConsumers tenants starts).sharedConsumer = p.sharedConsumer ∧
      (p.updateDedicatedConsumers tenants starts).sharedTopics = p.sharedTopics ∧
      (p.updateDedicatedConsumers tenants starts).blockedSharedTopics = p.blockedSharedTopics := by
  have hf : ∀ (ts : List TenantTopics) (q : Pool), (ts.foldl (startDedicated starts) q).sharedConsumer = q.sharedConsumer ∧
        (ts.foldl (startDedicated starts) q).sharedTopics = q.sharedTopics ∧
        (ts.foldl (startDedicated starts) q).blockedSharedTopics = q.blockedSharedTopics := by
    intro ts
    induction ts with
    | nil => exact fun q => ⟨rfl, rfl, rfl⟩
    | cons t ts ih =>
      intro q
      obtain ⟨h₁, h₂, h₃⟩ := ih (q.startDedicated starts t)
      obtain ⟨g₁, g₂, g₃⟩ := q.startDedicated_shared starts t
      exact ⟨h₁.trans g₁, h₂.trans g₂, h₃.trans g₃⟩
  exact hf tenants (p.stopUnlisted tenants)

theorem updateSharedConsumer_dedicated (p : Pool) (topics : List GoStr) (starts : Bool) :
    (p.updateSharedConsumer topics starts).1.dedicatedConsumers = p.dedicatedConsumers ∧
      (p.updateSharedConsumer topics starts).1.dedicatedTopics = p.dedicatedTopics ∧
      (p.updateSharedConsumer topics starts).1.running = p.running := by
  simp only [updateSharedConsumer]
  split
  · exact ⟨rfl, rfl, rfl⟩
  · split
    · split <;> exact ⟨rfl, rfl, rfl⟩
    · exact ⟨rfl, rfl, rfl⟩

end Pool
end Sukko.Orchestration
