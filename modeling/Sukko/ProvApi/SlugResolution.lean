import Sukko.Provisioning.Slugs
import Sukko.ProvApi.TenantConfig
import Sukko.Shared.Auth
/-
# Slug resolution and token scope

The grace lookup of the API, the gateway's `tenantUUIDBySlug` and the tenant binding of `ValidateJWT` agree as long as slugs
have one owner (`Sukko.Provisioning.SlugInv`).
-/

namespace Sukko.ProvApi
open Provisioning Replica Steps Auth TenantConfig List

def gatewayOf (cfg : Config) (limit : Nat) (s : TenantState) : Provider :=
  Provider.empty.updateTenantConfigs ⟨true, loadTenantConfigs cfg.holdPeriod s.now limit s.store, []⟩

/-! ## Readers find owners -/

variable {hold now : Time} {limit : Nat} {t : Tenant} {s : TenantState} {cfg : Config} {st : Store} {x : GoStr}

theorem ownsSlug_of_matchesWithGrace {slug : GoStr} (h : Tenants.matchesWithGrace hold now slug t = true) :
    OwnsSlug hold now t slug := by
  unfold Tenants.matchesWithGrace at h
  simp only [Bool.and_eq_true, Bool.or_eq_true, beq_iff_eq, Option.isNone_iff_eq_none] at h
  obtain ⟨hd, hsl | ⟨⟨⟨hp, -⟩, hs⟩, hat⟩⟩ := h
  · exact ⟨hd, .inl hsl⟩
  · exact ⟨hd, .inr (by simp [holdsSlug, hp, hs, hat])⟩

theorem holdsSlug_of_heldSlug (h : heldSlug hold now t = x) (hx : x ≠ []) : holdsSlug hold now t x = true := by
  unfold heldSlug at h
  split at h
  · rename_i hc
    simp only [Bool.and_eq_true, beq_iff_eq] at hc
    obtain ⟨⟨-, hs⟩, hat⟩ := hc
    have hpr : t.previousSlug = some x := by
      cases hp : t.previousSlug with
      | none => simp [hp] at h; exact absurd h hx
      | some y => simpa [hp] using h
    cases hr : t.renamedAt with
    | none => simp [hr] at hat
    | some at_ =>
      simp only [hr, Option.any_some, decide_eq_true_eq] at hat
      have hl : ∀ n o a : Int, n - a < o → n - o < a := by intro n o a; omega
      have hlt : now - hold < at_ := hl now hold at_ hat
      simp [holdsSlug, hpr, hs, hr, hlt]
  · exact absurd h.symm hx

theorem mem_loadTenantConfigs {tc : TenantConfig} (h : tc ∈ loadTenantConfigs hold now limit st) :
    ∃ t ∈ st.tenants, t.status = .active ∧ tc = loadTenantConfig hold now st t := by
  unfold loadTenantConfigs at h
  obtain ⟨t, ht, rfl⟩ := mem_map.1 h
  obtain ⟨hl, ha⟩ := mem_filter.1 ht
  have hm : t ∈ st.tenants := mem_of_mem_filter ((mem_insertionSort _).1 (mem_of_mem_take hl))
  exact ⟨t, hm, by simpa using ha, rfl⟩

theorem ownsSlug_of_mem_aliases (hd : t.deletedAt = none)
    (h : x ∈ (loadTenantConfig hold now st t).aliases) : OwnsSlug hold now t x := by
  unfold aliases at h
  split at h
  · cases h
  split at h
  · exact ⟨hd, .inl (mem_singleton.1 h).symm⟩
  · rename_i hp
    rcases mem_cons.1 h with rfl | h
    · exact ⟨hd, .inl rfl⟩
    · rw [mem_singleton.1 h]
      exact ⟨hd, .inr (holdsSlug_of_heldSlug rfl hp)⟩

theorem owner_of_tenantUUIDBySlug {slug uuid : GoStr}
    (hi : SlugInv cfg.holdPeriod s.now s.store.tenants) (h : (gatewayOf cfg limit s).tenantUUIDBySlug slug = some uuid) :
    ∃ t ∈ s.store.tenants, t.id = uuid ∧ OwnsSlug cfg.holdPeriod s.now t slug := by
  have ha := Provider.updateTenantConfigs_applied true (loadTenantConfigs cfg.holdPeriod s.now limit s.store) Provider.empty
  unfold gatewayOf at h
  rw [ha.tenantUUIDBySlug] at h
  rcases Map.mem_of_setAll_eq_some h with h | h
  · obtain ⟨tc, htc, hw⟩ := mem_flatMap.1 h
    obtain ⟨t, ht, hac, rfl⟩ := mem_loadTenantConfigs htc
    obtain ⟨x, hx, heq⟩ := mem_map.1 hw
    cases heq
    have hd : t.deletedAt = none := (hi.rows t ht).deleted.2 (by simp [hac])
    exact ⟨t, ht, rfl, ownsSlug_of_mem_aliases hd hx⟩
  · cases h

/-! ## The theorem -/

/-- What must hold of every state: slugs resolve to one tenant, and to their current owner. -/
structure Isolated (cfg : Config) (limit : Nat) (s : TenantState) : Prop where
  lookup : ∀ slug, ∀ t ∈ s.store.tenants, ∀ u ∈ s.store.tenants,
    Tenants.matchesWithGrace cfg.holdPeriod s.now slug t = true →
    Tenants.matchesWithGrace cfg.holdPeriod s.now slug u = true → t = u
  gateway : ∀ t ∈ s.store.tenants, t.status ≠ .deleted → ∀ uuid,
    (gatewayOf cfg limit s).tenantUUIDBySlug t.slug = some uuid → uuid = t.id
  tokens : ∀ (lib : JWTLib) (opts : ValidateOpts) (now : Time) (tok : GoStr) (c : Claims),
    opts.disableTenantBinding = false →
    opts.tenantResolver = some (gatewayOf cfg limit s).resolveTenantUUID →
    validateJWT lib opts now tok = .ok c →
    ∀ t ∈ s.store.tenants, t.status ≠ .deleted → t.slug = c.tenantID →
      ∃ key, signingKey lib opts tok = some key ∧ key.tenantID = t.id

theorem isolated_of_slugInv (hi : SlugInv cfg.holdPeriod s.now s.store.tenants) : Isolated cfg limit s := by
  have hg : ∀ t ∈ s.store.tenants, t.status ≠ .deleted → ∀ uuid,
      (gatewayOf cfg limit s).tenantUUIDBySlug t.slug = some uuid → uuid = t.id := by
    intro t ht hl uuid h
    obtain ⟨u, hu, hid, ho⟩ := owner_of_tenantUUIDBySlug hi h
    have how : OwnsSlug cfg.holdPeriod s.now t t.slug := ⟨(hi.rows t ht).deleted.2 hl, .inl rfl⟩
    rw [hi.exclusive.unique ht hu how ho, hid]
  refine ⟨?_, hg, ?_⟩
  · intro slug t ht u hu hm hm'
    exact hi.exclusive.unique ht hu (ownsSlug_of_matchesWithGrace hm) (ownsSlug_of_matchesWithGrace hm')
  · intro lib opts now tok c hb hrs hok t ht hl hs
    obtain ⟨key, hk, -, -, hsc⟩ := validateJWT_ok hok
    have hne : c.tenantID ≠ [] := hs ▸ (hi.rows t ht).slug
    obtain ⟨-, resolve, hr, hud⟩ := hsc hb hne
    refine ⟨key, hk, ?_⟩
    rw [hrs] at hr
    cases hr
    have hmp : (gatewayOf cfg limit s).tenantUUIDBySlug t.slug = some key.tenantID := by
      rw [hs]
      exact (Option.filter_eq_some_iff.1 hud).1
    exact hg t ht hl _ hmp

/-- **Slug resolution never crosses tenants** in any run whose calls take no slug on hold. -/
theorem slug_resolution_isolated (cfg : Config) (limit : Nat) (as : List TenantAct) (s : TenantState)
    (hok : Along (tenantStep cfg) (fun s a => HeldSlugsFree cfg s a = true) TenantState.init as)
    (hrun : run (tenantStep cfg) TenantState.init as = some s) : Isolated cfg limit s :=
  isolated_of_slugInv (SlugInv.run hok hrun)

def reuseRun (wait : Nat) : List TenantAct :=
  [.op (.createTenant (str "acme") (str "uuid-1") none true), .tick 1,
   .op (.renameTenant (str "acme") (str "acme-old") true), .tick wait,
   .op (.createTenant (str "acme") (str "uuid-2") none true)]

theorem slug_resolution_isolated_reuseRun :
    ∃ s, run (tenantStep demoConfig) TenantState.init (reuseRun 100) = some s ∧ s.store.tenants.length = 2 ∧
      Isolated demoConfig 10 s := by
  obtain ⟨s, hs, hlen⟩ : ∃ s, run (tenantStep demoConfig) TenantState.init (reuseRun 100) = some s ∧
      s.store.tenants.length = 2 := ⟨_, rfl, rfl⟩
  exact ⟨s, hs, hlen, slug_resolution_isolated demoConfig 10 (reuseRun 100) s (by decide) hs⟩

def demoClaims : Claims := ⟨str "jti", str "user", [], some 0, none, str "acme", [], [], [], [], []⟩

def demoLib : JWTLib where
  parse := fun _ => some ⟨some (str "key-1"), some (str "ES256"), demoClaims⟩
  verify := fun _ _ => true
  check := fun _ _ => none

def demoOpts (resolve : GoStr → Option GoStr) : ValidateOpts where
  getKey := fun _ => .ok ⟨str "key-1", str "uuid-1", str "ES256", [], true, none, none⟩
  allowedAlgorithms := []
  allowedIssuers := []
  maxLifetime := 0
  requireClaims := [.tenantID]
  tenantResolver := some resolve
  disableTenantBinding := false

/-- **Bug**: a slug is taken by a new tenant while the old owner still holds it. The gateway maps it to the old owner, whose
alias is written last, and the old owner's tokens are accepted with the new owner's scope. -/
theorem foreign_token_accepted : ∃ s, run (tenantStep demoConfig) TenantState.init (reuseRun 1) = some s ∧
      (s.store.tenants.filter (Tenants.matchesWithGrace demoConfig.holdPeriod s.now (str "acme"))).map Tenant.id =
        [str "uuid-1", str "uuid-2"] ∧
      (∃ t ∈ s.store.tenants, t.id = str "uuid-2" ∧ t.slug = str "acme" ∧ t.status = .active ∧
        (gatewayOf demoConfig 10 s).tenantUUIDBySlug t.slug = some (str "uuid-1") ∧
        ∃ c key, validateJWT demoLib (demoOpts (gatewayOf demoConfig 10 s).resolveTenantUUID) 0 (str "token") = .ok c ∧
          c.tenantID = t.slug ∧ signingKey demoLib (demoOpts (gatewayOf demoConfig 10 s).resolveTenantUUID) (str "token") =
            some key ∧ key.tenantID = str "uuid-1") ∧
      ¬Isolated demoConfig 10 s := by
  refine ⟨_, rfl, by decide, ⟨_, .tail _ (.head _), rfl, rfl, rfl, by decide, _, _, rfl, by decide, rfl, rfl⟩, ?_⟩
  intro h
  exact absurd (h.gateway _ (.tail _ (.head _)) (by decide) (str "uuid-1") (by decide)) (by decide)

end Sukko.ProvApi
