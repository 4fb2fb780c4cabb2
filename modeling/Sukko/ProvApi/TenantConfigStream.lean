import Sukko.Lib.Steps
import Sukko.Provisioning.Service
import Sukko.ProvApi.TenantConfig
/-
# Tenant configuration on its way to the gateway

The stream (`provisioning/grpcserver/server.go:171`) opens with a snapshot and answers every `TenantConfigChanged` with a delta
that carries the list anew. A message is applied in the step that loads it; none is lost.
-/

namespace Sukko.ProvApi
open Provisioning Replica Message Steps TenantConfig

structure ConfigLoad where
  configs : List TenantConfig
  since : List TenantConfig
deriving DecidableEq

structure ConfigState where
  now : Time
  store : Store
  events : Nat
  provider : Provider
  last : Option ConfigLoad

def ConfigState.init : ConfigState := ⟨0, Store.empty, 0, Provider.empty, none⟩
def sentSince (last : Option ConfigLoad) : List TenantConfig := (last.map (·.since)).getD []

inductive ConfigAct
  | op (o : Op)
  | tick (d : Nat)
  | snapshot
  | delta
deriving DecidableEq

/-! ## The machine -/

def deliverConfigs (cfg : Config) (limit : Nat) (isSnapshot : Bool) (s : ConfigState) : ConfigState :=
  let configs := loadTenantConfigs cfg.holdPeriod s.now limit s.store
  { s with
      provider := s.provider.updateTenantConfigs ⟨isSnapshot, configs, []⟩
      last := some ⟨configs, itemsSince isSnapshot configs (sentSince s.last)⟩ }

def configStep (cfg : Config) (limit : Nat) (s : ConfigState) : ConfigAct → Option ConfigState
  | .op o =>
    let out := exec cfg s.now s.store o
    some { s with store := out.store, events := s.events + out.events.count .tenantConfigChanged }
  | .tick d => some { s with now := s.now + d }
  | .snapshot => some { deliverConfigs cfg limit true s with events := 0 }
  | .delta =>
    if s.last.isSome && 0 < s.events then
      some { deliverConfigs cfg limit false s with events := s.events - 1 }
    else none

/-! ## What the maps should hold -/

/-- The four maps are those of the configuration list applied to empty maps. -/
structure FromScratch (p : Provider) (configs : List TenantConfig) : Prop where
  channelRules : p.channelRules = (Provider.empty.updateTenantConfigs ⟨true, configs, []⟩).channelRules
  tenantUUIDBySlug : p.tenantUUIDBySlug = (Provider.empty.updateTenantConfigs ⟨true, configs, []⟩).tenantUUIDBySlug
  slugByUUID : p.slugByUUID = (Provider.empty.updateTenantConfigs ⟨true, configs, []⟩).slugByUUID
  routingSnapshots : p.routingSnapshots = (Provider.empty.updateTenantConfigs ⟨true, configs, []⟩).routingSnapshots

/-- Nothing that was sent since the last snapshot is absent from the last message. -/
structure NothingWithdrawn (l : ConfigLoad) : Prop where
  rules : ∀ tc ∈ l.since, tc.channelRules.isSome = true →
    ∃ tc' ∈ l.configs, tc'.tenantSlug = tc.tenantSlug ∧ tc'.channelRules.isSome = true
  slugs : ∀ tc ∈ l.since, ∀ slug ∈ tc.aliases, ∃ tc' ∈ l.configs, slug ∈ tc'.aliases
  uuids : ∀ tc ∈ l.since, tc.tenantUuid ≠ [] → ∃ tc' ∈ l.configs, tc'.tenantUuid = tc.tenantUuid
  tenants : ∀ tc ∈ l.since, ∃ tc' ∈ l.configs, tc'.tenantSlug = tc.tenantSlug

/-! ## The invariant -/

structure Tracked {υ : Type} (writes : TenantConfig → List (GoStr × υ)) (m : Map GoStr υ) (last : Option ConfigLoad) :
    Prop where
  holds : HoldsItems writes m (sentSince last)
  exact_iff : ∀ l, last = some l → (m = Map.empty.setAll (l.configs.flatMap writes) ↔
    ∀ tc ∈ l.since, ∀ k ∈ itemKeys writes tc, ∃ tc' ∈ l.configs, k ∈ itemKeys writes tc')

theorem Tracked.init {υ : Type} (writes : TenantConfig → List (GoStr × υ)) : Tracked writes Map.empty none :=
  ⟨by simp [HoldsItems, sentSince, Map.empty], by simp⟩

theorem Tracked.deliver {υ : Type} {writes : TenantConfig → List (GoStr × υ)} {m m' : Map GoStr υ}
    {last : Option ConfigLoad} (h : Tracked writes m last) {snap : Bool} {configs : List TenantConfig}
    (hm : m' = (ofItems writes snap configs).apply m) :
    Tracked writes m' (some ⟨configs, itemsSince snap configs (sentSince last)⟩) := by
  subst hm
  refine ⟨h.holds.apply, ?_⟩
  rintro l ⟨⟩
  exact h.holds.apply_eq_scratch_iff

structure ConfigInv (s : ConfigState) : Prop where
  channelRules : Tracked rulesWrites s.provider.channelRules s.last
  tenantUUIDBySlug : Tracked uuidWrites s.provider.tenantUUIDBySlug s.last
  slugByUUID : Tracked slugWrites s.provider.slugByUUID s.last
  routingSnapshots : Tracked routingWrites s.provider.routingSnapshots s.last

variable {cfg : Config} {limit : Nat} {s s' : ConfigState}

theorem ConfigInv.init : ConfigInv ConfigState.init := ⟨.init _, .init _, .init _, .init _⟩

theorem ConfigInv.deliver (hi : ConfigInv s) (snap : Bool) : ConfigInv (deliverConfigs cfg limit snap s) := by
  have ha := Provider.updateTenantConfigs_applied snap (loadTenantConfigs cfg.holdPeriod s.now limit s.store) s.provider
  exact {
    channelRules := hi.channelRules.deliver ha.channelRules
    tenantUUIDBySlug := hi.tenantUUIDBySlug.deliver ha.tenantUUIDBySlug
    slugByUUID := hi.slugByUUID.deliver ha.slugByUUID
    routingSnapshots := hi.routingSnapshots.deliver ha.routingSnapshots }

theorem ConfigInv.step {a : ConfigAct} (hi : ConfigInv s) (hs : configStep cfg limit s a = some s') : ConfigInv s' := by
  cases a with
  | op o | tick d => cases hs; exact { hi with }
  | snapshot => cases hs; exact { hi.deliver true with }
  | delta =>
    simp only [configStep] at hs
    split at hs <;> cases hs
    exact { hi.deliver false with }

/-! ## When the configuration has reached the gateway -/

theorem fromScratch_iff {p : Provider} {configs : List TenantConfig} :
    FromScratch p configs ↔
      p.channelRules = Map.empty.setAll (configs.flatMap rulesWrites) ∧
      p.tenantUUIDBySlug = Map.empty.setAll (configs.flatMap uuidWrites) ∧
      p.slugByUUID = Map.empty.setAll (configs.flatMap slugWrites) ∧
      p.routingSnapshots = Map.empty.setAll (configs.flatMap routingWrites) := by
  have ha := Provider.updateTenantConfigs_applied true configs Provider.empty
  constructor
  · rintro ⟨h1, h2, h3, h4⟩
    exact ⟨h1.trans ha.channelRules, h2.trans ha.tenantUUIDBySlug, h3.trans ha.slugByUUID,
      h4.trans ha.routingSnapshots⟩
  · rintro ⟨h1, h2, h3, h4⟩
    exact ⟨h1.trans ha.channelRules.symm, h2.trans ha.tenantUUIDBySlug.symm, h3.trans ha.slugByUUID.symm,
      h4.trans ha.routingSnapshots.symm⟩

/-! The keys one configuration writes into each map. -/

variable {k : GoStr} {tc : TenantConfig}

theorem mem_keys_rules : k ∈ itemKeys rulesWrites tc ↔ tc.tenantSlug = k ∧ tc.channelRules.isSome = true := by
  unfold itemKeys rulesWrites
  cases tc.channelRules <;> simp [eq_comm]

theorem mem_keys_uuid : k ∈ itemKeys uuidWrites tc ↔ k ∈ tc.aliases := by
  simp [itemKeys, uuidWrites]

theorem mem_keys_slug : k ∈ itemKeys slugWrites tc ↔ tc.tenantUuid = k ∧ tc.tenantUuid ≠ [] := by
  unfold itemKeys slugWrites
  by_cases h : tc.tenantUuid = [] <;> simp [h, eq_comm]

theorem mem_keys_routing : k ∈ itemKeys routingWrites tc ↔ tc.tenantSlug = k := by
  simp [itemKeys, routingWrites, eq_comm]

theorem nothingWithdrawn_iff {l : ConfigLoad} :
    NothingWithdrawn l ↔
      (∀ tc ∈ l.since, ∀ k ∈ itemKeys rulesWrites tc, ∃ tc' ∈ l.configs, k ∈ itemKeys rulesWrites tc') ∧
      (∀ tc ∈ l.since, ∀ k ∈ itemKeys uuidWrites tc, ∃ tc' ∈ l.configs, k ∈ itemKeys uuidWrites tc') ∧
      (∀ tc ∈ l.since, ∀ k ∈ itemKeys slugWrites tc, ∃ tc' ∈ l.configs, k ∈ itemKeys slugWrites tc') ∧
      (∀ tc ∈ l.since, ∀ k ∈ itemKeys routingWrites tc, ∃ tc' ∈ l.configs, k ∈ itemKeys routingWrites tc') := by
  simp only [mem_keys_rules, mem_keys_uuid, mem_keys_slug, mem_keys_routing]
  constructor
  · rintro ⟨hr, ha, hu, ht⟩
    refine ⟨?_, ha, ?_, ?_⟩
    · rintro tc htc _ ⟨rfl, hs⟩
      exact hr tc htc hs
    · rintro tc htc _ ⟨rfl, hne⟩
      obtain ⟨tc', htc', heq⟩ := hu tc htc hne
      exact ⟨tc', htc', heq, heq ▸ hne⟩
    · rintro tc htc _ rfl
      exact ht tc htc
  · rintro ⟨hr, ha, hu, ht⟩
    refine ⟨fun tc htc hs => hr tc htc _ ⟨rfl, hs⟩, ha, ?_, fun tc htc => ht tc htc _ rfl⟩
    intro tc htc hne
    obtain ⟨tc', htc', heq, -⟩ := hu tc htc _ ⟨rfl, hne⟩
    exact ⟨tc', htc', heq⟩

theorem ConfigInv.fromScratch_iff (hi : ConfigInv s) {l : ConfigLoad} (hl : s.last = some l) :
    FromScratch s.provider l.configs ↔ NothingWithdrawn l := by
  rw [ProvApi.fromScratch_iff, nothingWithdrawn_iff, hi.channelRules.exact_iff l hl, hi.tenantUUIDBySlug.exact_iff l hl,
    hi.slugByUUID.exact_iff l hl, hi.routingSnapshots.exact_iff l hl]

/-- **When the provider is right**: the four maps are those of the last message alone iff nothing sent since the last snapshot is
absent from it. -/
theorem tenant_config_from_scratch_iff (cfg : Config) (limit : Nat) (as : List ConfigAct) (s : ConfigState)
    (l : ConfigLoad) (hrun : run (configStep cfg limit) ConfigState.init as = some s) (hl : s.last = some l) :
    FromScratch s.provider l.configs ↔ NothingWithdrawn l := by
  have hi : ConfigInv s := run_invariant ConfigInv (fun _ _ _ hi hs => hi.step hs) ConfigInv.init hrun
  exact hi.fromScratch_iff hl

def demoRules : ChannelRules := ⟨[str "news.*"], [], [], [], [], []⟩

def configRun : List ConfigAct :=
  [.op (.createTenant (str "acme") (str "uuid-1") none true), .op (.setChannelRules (str "acme") demoRules),
   .snapshot]

def withdrawRun : List ConfigAct :=
  configRun ++ [.op (.deleteChannelRules (str "acme")), .delta, .op (.suspendTenant (str "acme")), .delta]

/-- A second tenant and its rules reach the provider by deltas. -/
def secondTenantRun : List ConfigAct :=
  configRun ++ [.op (.createTenant (str "globex") (str "uuid-2") none true), .delta,
    .op (.setChannelRules (str "globex") demoRules), .delta]

theorem tenant_config_from_scratch_iff_configRun :
    ∃ s l, run (configStep demoConfig 10) ConfigState.init secondTenantRun = some s ∧ s.last = some l ∧
      l.since.length = 5 ∧ s.provider.getChannelRules (str "globex") = some demoRules ∧
      FromScratch s.provider l.configs := by
  obtain ⟨s, hs, hrules, l, hl, hlen, hkept⟩ : ∃ s, run (configStep demoConfig 10) ConfigState.init secondTenantRun = some s ∧
      s.provider.getChannelRules (str "globex") = some demoRules ∧
      ∃ l, s.last = some l ∧ l.since.length = 5 ∧ NothingWithdrawn l :=
    ⟨_, rfl, by decide +kernel, _, rfl, by decide +kernel, by decide +kernel, by decide +kernel, by decide +kernel,
      by decide +kernel⟩
  exact ⟨s, l, hs, hl, hlen, hrules, (tenant_config_from_scratch_iff demoConfig 10 secondTenantRun s l hs hl).2 hkept⟩

/-- **Bug**: a tenant whose rules were deleted and that was suspended still has its rules, still resolves and still has a routing
snapshot. -/
theorem withdrawn_config_stays :
    ∃ s l, run (configStep demoConfig 10) ConfigState.init withdrawRun = some s ∧ s.last = some l ∧
      l.configs = [] ∧ s.provider.getChannelRules (str "acme") = some demoRules ∧
      s.provider.resolveTenantUUID (str "acme") = some (str "uuid-1") ∧
      s.provider.resolveTenantSlug (str "uuid-1") = some (str "acme") ∧
      s.provider.getRoutingSnapshot (str "acme") = some [] ∧ ¬FromScratch s.provider l.configs := by
  refine ⟨_, _, rfl, rfl, by decide, by decide, by decide, by decide, by decide, ?_⟩
  intro h
  exact absurd (congrFun h.channelRules (str "acme")) (by decide)

end Sukko.ProvApi
