import Sukko.Provisioning.Store
/-
# The provisioning service

**Boundary**: the Kafka admin calls and the edition limit let a method go on or make it fail (`kafkaOK`). The shape checks of
rule sets and the topic registry are the predicates of `Config`. Database statements do not fail for reasons of their own.
-/

namespace Sukko.Provisioning

inductive EventType
  | keysChanged
  | apiKeysChanged
  | tenantConfigChanged
  | topicsChanged
deriving DecidableEq

structure Config where
  holdPeriod : Time
  deprovisionGrace : Time
  rulesValid : ChannelRules → Bool
  replaceValid : Tenant → List RoutingRule → Bool
  addValid : Tenant → List RoutingRule → RoutingRule → Bool

structure Outcome where
  store : Store
  events : List EventType
  err : Option Err

def Outcome.ok (st : Store) (events : List EventType) : Outcome := ⟨st, events, none⟩
def Outcome.fail (st : Store) (e : Err) : Outcome := ⟨st, [], some e⟩

/-! ## Input checks -/

def isLower (b : UInt8) : Bool := 97 ≤ b && b ≤ 122

def identPattern : GoStr → Bool
  | [] => false
  | b :: s => isLower b && (s.all fun c => isLower c || GoStr.isDigit c || c == 45) && 2 ≤ s.length && s.length ≤ 62

/-- See `provisioning/service.go:1637`. -/
def isReservedSlug (s : GoStr) : Bool :=
  (["admin", "api", "health", "ready", "metrics", "version", "edition", "config", "debug", "internal",
    "system", "sukko", "keys", "api-keys", "routing-rules", "quotas", "audit", "channel-rules", "tokens",
    "suspend", "reactivate", "rename", "test-access"].map str).contains s

structure KeyInput where
  keyID : GoStr
  algorithm : GoStr
  publicKey : GoStr
  expiresAt : Option Time
deriving DecidableEq

/-- See `provisioning/types.go:254`. -/
def validateKeyInput (k : KeyInput) : Bool :=
  identPattern k.keyID && (["ES256", "RS256", "EdDSA"].map str).contains k.algorithm &&
    50 ≤ k.publicKey.length

def KeyInput.row (k : KeyInput) (tenantID : GoStr) : TenantKey :=
  ⟨k.keyID, tenantID, k.algorithm, k.publicKey, true, k.expiresAt, none⟩

/-! ## What the methods share -/

def withTenant (st : Store) (slug : GoStr) (body : Tenant → Outcome) : Outcome :=
  match Tenants.getBySlug st.tenants slug with
  | .error e => .fail st e
  | .ok tenant => body tenant

def withActiveTenant (st : Store) (slug : GoStr) (body : Tenant → Outcome) : Outcome :=
  withTenant st slug fun tenant => if tenant.status ≠ .active then .fail st .tenantNotActive else body tenant

def commit (st : Store) (result : Except Err Store) (events : List EventType) : Outcome :=
  match result with
  | .error e => .fail st e
  | .ok st' => .ok st' events

/-! ## Tenants -/

/-- The id is the one the database generates. A key that cannot be stored fails the call after the tenant row is written, without
an event. -/
def createTenant (now : Time) (st : Store) (slug id : GoStr) (key : Option KeyInput) (kafkaOK : Bool) :
    Outcome :=
  if !identPattern slug then .fail st .slugInvalid
  else if !key.all validateKeyInput then .fail st .keyInvalid
  else if isReservedSlug slug then .fail st .slugReserved
  else if !kafkaOK then .fail st .kafka
  else
    match Tenants.create now st.tenants id slug with
    | .error e => .fail st e
    | .ok tenants =>
      let st := { st with tenants }
      match key with
      | none => .ok st [.topicsChanged, .tenantConfigChanged]
      | some k =>
        commit st ((Keys.create st.keys (k.row id)).map fun keys => { st with keys })
          [.topicsChanged, .tenantConfigChanged]

/-- See `provisioning/service.go:480`. -/
def updateTenant (st : Store) (slug : GoStr) : Outcome :=
  withTenant st slug fun tenant =>
    if tenant.status = .deleted then .fail st .tenantDeleted
    else .ok st [.tenantConfigChanged]

def holdElapsed (cfg : Config) (now renamedAt : Time) : Bool := cfg.holdPeriod ≤ now - renamedAt

/-- See `provisioning/service.go:1652`. -/
def renameTenant (cfg : Config) (now : Time) (st : Store) (slug newSlug : GoStr) (kafkaOK : Bool) :
    Outcome :=
  if !identPattern newSlug then .fail st .slugInvalid
  else if isReservedSlug newSlug then .fail st .slugReserved
  else withActiveTenant st slug fun tenant =>
    if newSlug = tenant.slug then .fail st .slugUnchanged
    else if !tenant.renamedAt.all (holdElapsed cfg now) then .fail st .slugRenameInProgress
    else
      -- steps 6 and 7: the residue of an earlier rename is cleared lazily
      let st := if tenant.renamedAt.isSome
        then { st with tenants := Tenants.clearRenameState st.tenants tenant.id } else st
      match Tenants.getBySlug st.tenants newSlug with
      | .ok _ => .fail st .slugAlreadyTaken
      | .error _ =>
        match Tenants.setRenameState st.tenants tenant.id .pending tenant.slug with
        | .error _ => .fail st .slugRenameInProgress
        | .ok tenants =>
          let st := { st with tenants }
          if !kafkaOK then .fail st .kafka
          else
            match Tenants.updateSlug now st.tenants tenant.id newSlug with
            | .error e => .fail { st with tenants := Tenants.clearRenameState st.tenants tenant.id } e
            | .ok tenants => .ok { st with tenants } [.tenantConfigChanged]

def moveStatus (now : Time) (st : Store) (slug : GoStr) (source target : Status) : Outcome :=
  withTenant st slug fun tenant =>
    if tenant.status = .deleted then .fail st .tenantDeleted
    else if tenant.status ≠ source then .fail st .tenantNotActive
    else
      commit st ((Tenants.updateStatus now st.tenants tenant.id target).map fun tenants => { st with tenants })
        [.topicsChanged, .tenantConfigChanged]

def suspendTenant (now : Time) (st : Store) (slug : GoStr) : Outcome :=
  moveStatus now st slug .active .suspended

def reactivateTenant (now : Time) (st : Store) (slug : GoStr) : Outcome :=
  moveStatus now st slug .suspended .active

def revokeAPIKeysOf (now : Time) (rows : List APIKey) (tenantID : GoStr) : List APIKey :=
  ((APIKeys.listByTenant rows tenantID 10000).filter (·.isActive)).foldl
    (fun rows k => (APIKeys.revoke now rows k.keyID).toOption.getD rows) rows

def forceDeleted (now : Time) (st : Store) (id : GoStr) (tenants : List Tenant) : Store where
  tenants := tenants
  keys := Keys.revokeAllForTenant now st.keys id
  apiKeys := revokeAPIKeysOf now st.apiKeys id
  channelRules := (ChannelRulesT.delete st.channelRules id).toOption.getD st.channelRules
  routingRules := RoutingRulesT.deleteAll st.routingRules id

/-- See `provisioning/service.go:708`. -/
def forceDeleteTenant (now : Time) (st : Store) (tenant : Tenant) : Outcome :=
  let anyRevoked := (APIKeys.listByTenant st.apiKeys tenant.id 10000).any (·.isActive)
  commit st ((Tenants.updateStatus now st.tenants tenant.id .deleted).map (forceDeleted now st tenant.id))
    ([.keysChanged] ++ (if anyRevoked then [.keysChanged] else []) ++ [.topicsChanged, .tenantConfigChanged])

/-- See `provisioning/service.go:611`. -/
def deprovisionTenant (cfg : Config) (now : Time) (st : Store) (slug : GoStr) (force : Bool) : Outcome :=
  withTenant st slug fun tenant =>
    if tenant.status = .deleted then .fail st .tenantDeleted
    else if !force && tenant.status = .deprovisioning then .fail st .tenantNotActive
    else if force then forceDeleteTenant now st tenant
    else
      commit st
        ((Tenants.updateStatus now st.tenants tenant.id .deprovisioning).map fun tenants =>
          { st with
              tenants := Tenants.setDeprovisionAt tenants tenant.id (now + cfg.deprovisionGrace)
              keys := Keys.revokeAllForTenant now st.keys tenant.id })
        [.keysChanged, .topicsChanged, .tenantConfigChanged]

/-- See `provisioning/lifecycle.go:135`. -/
def deleteTenant (now : Time) (st : Store) (id : GoStr) : Outcome :=
  if (Tenants.getTenantsForDeletion now st.tenants).any (·.id == id) then
    let st := { st with routingRules := RoutingRulesT.deleteAll st.routingRules id }
    commit st ((Tenants.updateStatus now st.tenants id .deleted).map fun tenants => { st with tenants }) []
  else .fail st .tenantNotFound

/-- See `provisioning/service.go:1817`. -/
def start (st : Store) : Outcome :=
  .ok st ((st.tenants.filter fun t =>
    t.renameState == some .complete && t.previousSlug.any (· != [])).map fun _ => .tenantConfigChanged)

/-! ## Keys -/

/-- See `provisioning/service.go:802`. -/
def createKey (st : Store) (slug : GoStr) (key : KeyInput) : Outcome :=
  withActiveTenant st slug fun tenant =>
    if !validateKeyInput key then .fail st .keyInvalid
    else commit st ((Keys.create st.keys (key.row tenant.id)).map fun keys => { st with keys }) [.keysChanged]

/-- See `provisioning/service.go:857`. -/
def revokeKey (now : Time) (st : Store) (slug keyID : GoStr) : Outcome :=
  withTenant st slug fun tenant =>
    match Keys.get st.keys keyID with
    | .error e => .fail st e
    | .ok key =>
      if key.tenantID ≠ tenant.id then .fail st .keyNotOwnedByTenant
      else commit st ((Keys.revoke now st.keys keyID).map fun keys => { st with keys }) [.keysChanged]

/-- See `provisioning/service.go:1537`. -/
def createAPIKey (now : Time) (st : Store) (slug keyID name : GoStr) : Outcome :=
  withActiveTenant st slug fun tenant =>
    commit st
      ((APIKeys.create st.apiKeys ⟨keyID, tenant.id, name, true, now, none⟩).map fun apiKeys =>
        { st with apiKeys })
      [.apiKeysChanged]

/-- See `provisioning/service.go:1592`. -/
def revokeAPIKey (now : Time) (st : Store) (slug keyID : GoStr) : Outcome :=
  withTenant st slug fun tenant =>
    match APIKeys.get st.apiKeys keyID with
    | .error e => .fail st e
    | .ok key =>
      if key.tenantID ≠ tenant.id then .fail st .keyNotOwnedByTenant
      else
        commit st ((APIKeys.revoke now st.apiKeys keyID).map fun apiKeys => { st with apiKeys })
          [.apiKeysChanged]

/-! ## Rules -/

/-- See `provisioning/service.go:1049`. -/
def setChannelRules (cfg : Config) (st : Store) (slug : GoStr) (rules : ChannelRules) : Outcome :=
  withActiveTenant st slug fun tenant =>
    if !cfg.rulesValid rules then .fail st .channelRulesInvalid
    else .ok { st with channelRules := ChannelRulesT.update st.channelRules tenant.id rules }
      [.tenantConfigChanged]

/-- See `provisioning/service.go:1090`. -/
def deleteChannelRules (st : Store) (slug : GoStr) : Outcome :=
  withTenant st slug fun tenant =>
    commit st ((ChannelRulesT.delete st.channelRules tenant.id).map fun channelRules => { st with channelRules })
      [.tenantConfigChanged]

def RoutingRule.normalized (r : RoutingRule) : RoutingRule :=
  { r with pattern := Routing.normalizePattern r.pattern }

/-- See `provisioning/service.go:1182`. -/
def replaceRoutingRules (cfg : Config) (st : Store) (slug : GoStr) (rules : List RoutingRule) : Outcome :=
  withActiveTenant st slug fun tenant =>
    let rules := rules.map (·.normalized)
    if !cfg.replaceValid tenant rules then .fail st .routingRulesInvalid
    else
      commit st ((RoutingRulesT.replace st.routingRules tenant.id rules).map fun routingRules =>
          { st with routingRules })
        [.tenantConfigChanged, .topicsChanged]

/-- See `provisioning/service.go:1257`. -/
def addRoutingRule (cfg : Config) (st : Store) (slug : GoStr) (rule : RoutingRule) : Outcome :=
  withActiveTenant st slug fun tenant =>
    let rule := rule.normalized
    if !cfg.addValid tenant (RoutingRulesT.getAll st.routingRules tenant.id) rule then
      .fail st .routingRulesInvalid
    else
      commit st ((RoutingRulesT.add st.routingRules tenant.id rule).map fun routingRules =>
          { st with routingRules })
        [.tenantConfigChanged, .topicsChanged]

/-- See `provisioning/service.go:1374`. -/
def deleteRoutingRules (st : Store) (slug : GoStr) : Outcome :=
  withTenant st slug fun tenant =>
    .ok { st with routingRules := RoutingRulesT.deleteAll st.routingRules tenant.id }
      [.tenantConfigChanged, .topicsChanged]

/-! ## Any method -/

inductive Op
  | createTenant (slug id : GoStr) (key : Option KeyInput) (kafkaOK : Bool)
  | updateTenant (slug : GoStr)
  | renameTenant (slug newSlug : GoStr) (kafkaOK : Bool)
  | suspendTenant (slug : GoStr)
  | reactivateTenant (slug : GoStr)
  | deprovisionTenant (slug : GoStr) (force : Bool)
  | deleteTenant (id : GoStr)
  | start
  | createKey (slug : GoStr) (key : KeyInput)
  | revokeKey (slug keyID : GoStr)
  | createAPIKey (slug keyID name : GoStr)
  | revokeAPIKey (slug keyID : GoStr)
  | setChannelRules (slug : GoStr) (rules : ChannelRules)
  | deleteChannelRules (slug : GoStr)
  | replaceRoutingRules (slug : GoStr) (rules : List RoutingRule)
  | addRoutingRule (slug : GoStr) (rule : RoutingRule)
  | deleteRoutingRules (slug : GoStr)
deriving DecidableEq

def exec (cfg : Config) (now : Time) (st : Store) : Op → Outcome
  | .createTenant slug id key kafkaOK => createTenant now st slug id key kafkaOK
  | .updateTenant slug => updateTenant st slug
  | .renameTenant slug newSlug kafkaOK => renameTenant cfg now st slug newSlug kafkaOK
  | .suspendTenant slug => suspendTenant now st slug
  | .reactivateTenant slug => reactivateTenant now st slug
  | .deprovisionTenant slug force => deprovisionTenant cfg now st slug force
  | .deleteTenant id => deleteTenant now st id
  | .start => start st
  | .createKey slug key => createKey st slug key
  | .revokeKey slug keyID => revokeKey now st slug keyID
  | .createAPIKey slug keyID name => createAPIKey now st slug keyID name
  | .revokeAPIKey slug keyID => revokeAPIKey now st slug keyID
  | .setChannelRules slug rules => setChannelRules cfg st slug rules
  | .deleteChannelRules slug => deleteChannelRules st slug
  | .replaceRoutingRules slug rules => replaceRoutingRules cfg st slug rules
  | .addRoutingRule slug rule => addRoutingRule cfg st slug rule
  | .deleteRoutingRules slug => deleteRoutingRules st slug

def demoConfig : Config where
  holdPeriod := 100
  deprovisionGrace := 1000
  rulesValid := fun _ => true
  replaceValid := fun _ _ => true
  addValid := fun _ _ _ => true

/-! ## Rules for one method

`P` is what the store satisfies when the method returns, on every path. -/

section Rules
variable {P : Store → Prop} {st : Store} {slug : GoStr} {body : Tenant → Outcome}

theorem withTenant_rule (h0 : P st) (hb : ∀ t, Tenants.getBySlug st.tenants slug = .ok t → P (body t).store) :
    P (withTenant st slug body).store := by
  unfold withTenant
  split
  · exact h0
  · exact hb _ ‹_›

theorem withActiveTenant_rule (h0 : P st)
    (hb : ∀ t, Tenants.getBySlug st.tenants slug = .ok t → t.status = .active → P (body t).store) :
    P (withActiveTenant st slug body).store := by
  refine withTenant_rule h0 fun t ht => ?_
  split
  · exact h0
  · exact hb t ht (not_not.1 ‹_›)

theorem commit_rule {α : Type} {result : Except Err α} {f : α → Store} {events : List EventType} (h0 : P st)
    (hw : ∀ a, result = .ok a → P (f a)) : P (commit st (result.map f) events).store := by
  cases result with
  | error e => exact h0
  | ok a => exact hw a rfl

theorem ite_rule {c : Prop} [Decidable c] {x y : Outcome} (hx : c → P x.store) (hy : ¬c → P y.store) :
    P (if c then x else y).store := by
  split
  · exact hx ‹_›
  · exact hy ‹_›

end Rules

/-! ## What a call leaves behind -/

inductive Leaves (cfg : Config) (now : Time) (st : Store) : Op → Store → Prop
  | unchanged {o : Op} : Leaves cfg now st o st
  | tenantCreated {slug id : GoStr} {key : Option KeyInput} {kafkaOK : Bool} {tenants : List Tenant}
      (hslug : identPattern slug = true) (h : Tenants.create now st.tenants id slug = .ok tenants) :
      Leaves cfg now st (.createTenant slug id key kafkaOK) { st with tenants }
  | tenantCreatedWithKey {slug id : GoStr} {key : KeyInput} {kafkaOK : Bool} {tenants : List Tenant}
      {keys : List TenantKey} (hslug : identPattern slug = true)
      (h : Tenants.create now st.tenants id slug = .ok tenants) (hkey : Keys.create st.keys (key.row id) = .ok keys) :
      Leaves cfg now st (.createTenant slug id (some key) kafkaOK) { st with tenants, keys }
  | renamed {slug newSlug : GoStr} {kafkaOK : Bool} :
      Leaves cfg now st (.renameTenant slug newSlug kafkaOK) (renameTenant cfg now st slug newSlug kafkaOK).store
  | statusMoved {o : Op} {id : GoStr} {target : Status} {tenants : List Tenant}
      {routingRules : List (GoStr × RoutingRule)}
      (h : Tenants.updateStatus now st.tenants id target = .ok tenants) :
      Leaves cfg now st o { st with tenants, routingRules }
  | deprovisioned {slug id : GoStr} {tenants : List Tenant}
      (h : Tenants.updateStatus now st.tenants id .deprovisioning = .ok tenants) :
      Leaves cfg now st (.deprovisionTenant slug false)
        { st with
            tenants := Tenants.setDeprovisionAt tenants id (now + cfg.deprovisionGrace)
            keys := Keys.revokeAllForTenant now st.keys id }
  | forceDeleted {slug id : GoStr} {tenants : List Tenant}
      (h : Tenants.updateStatus now st.tenants id .deleted = .ok tenants) :
      Leaves cfg now st (.deprovisionTenant slug true) (forceDeleted now st id tenants)
  | keyCreated {slug tenantID : GoStr} {key : KeyInput} {keys : List TenantKey}
      (h : Keys.create st.keys (key.row tenantID) = .ok keys) : Leaves cfg now st (.createKey slug key) { st with keys }
  | keyRevoked {slug keyID : GoStr} {keys : List TenantKey} (h : Keys.revoke now st.keys keyID = .ok keys) :
      Leaves cfg now st (.revokeKey slug keyID) { st with keys }
  | apiKeyCreated {slug keyID name tenantID : GoStr} {apiKeys : List APIKey}
      (h : APIKeys.create st.apiKeys ⟨keyID, tenantID, name, true, now, none⟩ = .ok apiKeys) :
      Leaves cfg now st (.createAPIKey slug keyID name) { st with apiKeys }
  | apiKeyRevoked {slug keyID : GoStr} {apiKeys : List APIKey} (h : APIKeys.revoke now st.apiKeys keyID = .ok apiKeys) :
      Leaves cfg now st (.revokeAPIKey slug keyID) { st with apiKeys }
  | rulesWritten {o : Op} {channelRules : List (GoStr × ChannelRules)}
      {routingRules : List (GoStr × RoutingRule)} : Leaves cfg now st o { st with channelRules, routingRules }

/-- **What a call does**, on every path: one look at each method, for every invariant. -/
theorem exec_leaves (cfg : Config) (now : Time) (st : Store) (o : Op) : Leaves cfg now st o (exec cfg now st o).store := by
  have same : Leaves cfg now st o st := .unchanged
  let P : Store → Prop := Leaves cfg now st o
  change P _
  cases o with
  | createTenant slug id key kafkaOK =>
    refine ite_rule (fun _ => same) fun hp => ite_rule (fun _ => same) fun _ =>
      ite_rule (fun _ => same) fun _ => ite_rule (fun _ => same) fun _ => ?_
    have hsl : identPattern slug = true := by simpa using hp
    cases hc : Tenants.create now st.tenants id slug with
    | error e => exact same
    | ok tenants =>
      cases key with
      | none => exact .tenantCreated hsl hc
      | some k => exact commit_rule (.tenantCreated hsl hc) fun keys hk => .tenantCreatedWithKey hsl hc hk
  | updateTenant slug => exact withTenant_rule same fun t _ => ite_rule (fun _ => same) fun _ => same
  | renameTenant slug newSlug kafkaOK => exact .renamed
  | suspendTenant slug | reactivateTenant slug =>
    exact withTenant_rule same fun t _ => ite_rule (fun _ => same) fun _ => ite_rule (fun _ => same) fun _ =>
      commit_rule same fun _ hs => .statusMoved hs
  | deprovisionTenant slug force =>
    refine withTenant_rule same fun t _ => ite_rule (fun _ => same) fun _ => ite_rule (fun _ => same) fun _ =>
      ite_rule (fun hf => ?_) fun hf => ?_
    · subst hf
      exact commit_rule same fun _ hs => .forceDeleted hs
    · rw [Bool.not_eq_true] at hf
      subst hf
      exact commit_rule same fun _ hs => .deprovisioned hs
  | deleteTenant id =>
    exact ite_rule (fun _ => commit_rule .rulesWritten fun _ hs => .statusMoved hs) fun _ => same
  | start => exact same
  | createKey slug key =>
    exact withActiveTenant_rule same fun t _ _ => ite_rule (fun _ => same) fun _ =>
      commit_rule same fun _ hk => .keyCreated hk
  | revokeKey slug keyID =>
    refine withTenant_rule same fun t _ => ?_
    cases Keys.get st.keys keyID with
    | error e => exact same
    | ok key => exact ite_rule (fun _ => same) fun _ => commit_rule same fun _ hk => .keyRevoked hk
  | createAPIKey slug keyID name =>
    exact withActiveTenant_rule same fun t _ _ => commit_rule same fun _ hk => .apiKeyCreated hk
  | revokeAPIKey slug keyID =>
    refine withTenant_rule same fun t _ => ?_
    cases APIKeys.get st.apiKeys keyID with
    | error e => exact same
    | ok key => exact ite_rule (fun _ => same) fun _ => commit_rule same fun _ hk => .apiKeyRevoked hk
  | setChannelRules slug rules =>
    exact withActiveTenant_rule same fun t _ _ => ite_rule (fun _ => same) fun _ => .rulesWritten
  | deleteChannelRules slug => exact withTenant_rule same fun t _ => commit_rule same fun _ _ => .rulesWritten
  | replaceRoutingRules slug rules | addRoutingRule slug rule =>
    exact withActiveTenant_rule same fun t _ _ => ite_rule (fun _ => same) fun _ =>
      commit_rule same fun _ _ => .rulesWritten
  | deleteRoutingRules slug => exact withTenant_rule same fun t _ => .rulesWritten

end Sukko.Provisioning
