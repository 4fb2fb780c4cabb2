import Sukko.Gateway.RevocationLifetime
import Sukko.ProvApi.SlugResolution
/-
# Revocations across a rename

`IsRevoked` compares slugs, the validator binds the token by the tenant's UUID.
-/

namespace Sukko.Gateway.Rename
open Revocation Steps Auth ProvApi Provisioning

structure Issued where
  tenantUUID : GoStr
  entry : Entry
deriving DecidableEq

structure State where
  tenants : TenantState
  store : Revocation.Store
  registry : RevocationSnapshot
  issued : List Issued
  delivered : List Issued

def State.init : State := ⟨TenantState.init, ∅, RevocationSnapshot.empty, [], []⟩

inductive Act
  | tenant (a : TenantAct)
  | revoke (tenantSlug : GoStr) (req : RevocationRequest)
  | prune
  | deliver (isSnapshot : Bool) (delay : Nat)
deriving DecidableEq

/-- Models `RequireTenant` (`provisioning/api/middleware.go:320`), then `HandleRevoke`
(`provisioning/api/revocation_handler.go:79`). -/
def revoke (maxRevocationLifetime : Time) (s : State) (tenantSlug : GoStr) (req : RevocationRequest) : State :=
  match Tenants.getBySlug s.tenants.store.tenants tenantSlug with
  | .error _ => s
  | .ok t =>
    match handleRevoke s.store tenantSlug req s.tenants.now maxRevocationLifetime with
    | .error _ => s
    | .ok st =>
      { s with store := st, issued := ⟨t.id, req.entry tenantSlug s.tenants.now maxRevocationLifetime⟩ :: s.issued }

def step (cfg : Config) (maxRevocationLifetime : Time) (s : State) : Act → Option State
  | .tenant a => (tenantStep cfg s.tenants a).map fun tenants => { s with tenants }
  | .revoke tenantSlug req => some (revoke maxRevocationLifetime s tenantSlug req)
  | .prune => some { s with store := s.store.prune (unix s.tenants.now) }
  | .deliver isSnapshot delay =>
    let now := s.tenants.now + delay
    some { s with
             tenants := { s.tenants with now }
             registry := Lifetime.apply (unix now) isSnapshot s.registry (s.store.snapshot (unix s.tenants.now))
             delivered := s.issued }

/-! ## What the store and the registry hold -/

def Latest (rs : List Issued) (r : Issued) : Prop := rs.find? (fun x => x.entry.key == r.entry.key) = some r

instance (rs : List Issued) (r : Issued) : Decidable (Latest rs r) := inferInstanceAs (Decidable (_ = _))

theorem latest_cons {rs : List Issued} {x r : Issued} :
    Latest (x :: rs) r ↔ x = r ∨ x.entry.key ≠ r.entry.key ∧ Latest rs r := by
  unfold Latest
  by_cases hk : x.entry.key = r.entry.key
  · simp [hk]
  · have hne : x ≠ r := fun h => hk (h ▸ rfl)
    simp [hk, hne]

def WasIssued (rs : List Issued) (e : Entry) : Prop := ∃ r ∈ rs, r.entry = e

structure Inv (s : State) : Prop where
  valid : s.store.Valid
  stored : ∀ e, s.store.has e = true → WasIssued s.issued e
  kept : ∀ r, Latest s.issued r → unix s.tenants.now < r.entry.expiresAt → s.store.has r.entry = true
  known : ∀ r, Latest s.delivered r → unix s.tenants.now < r.entry.expiresAt → Known s.registry r.entry
  issued : From (WasIssued s.issued) s.registry

theorem Inv.init : Inv State.init where
  valid := Store.valid_empty
  stored e h := by cases h
  kept r h _ := by cases h
  known r h _ := by cases h
  issued := From.empty

section Steps
variable {s : State} {maxRevocationLifetime : Time}

theorem Inv.later (h : Inv s) {tenants : TenantState} (hle : s.tenants.now ≤ tenants.now) : Inv { s with tenants } where
  valid := h.valid
  stored := h.stored
  kept r hr he := h.kept r hr (Lifetime.unexpired_of_later hle he)
  known r hr he := h.known r hr (Lifetime.unexpired_of_later hle he)
  issued := h.issued

variable {cfg : Config}

theorem tenantStep_now {t t' : TenantState} {a : TenantAct} (h : tenantStep cfg t a = some t') :
    t.now ≤ t'.now := by
  cases a with
  | op o =>
    simp only [tenantStep, guarded] at h
    obtain ⟨-, rfl⟩ := h
    exact le_refl _
  | tick d =>
    cases h
    exact Lifetime.le_add_delay t.now d

theorem Inv.revoke (h : Inv s) (maxRevocationLifetime : Time) (tenantSlug : GoStr) (req : RevocationRequest) :
    Inv (revoke maxRevocationLifetime s tenantSlug req) := by
  unfold Rename.revoke
  split
  · exact h
  split
  · exact h
  rename_i t _ st hok
  have hrv := handleRevoke_ok hok
  constructor
  · exact h.valid.revoke hrv
  · intro e he
    rcases (Store.has_revoke hrv).1 he with rfl | ⟨hold, -⟩
    · exact ⟨_, List.mem_cons_self, rfl⟩
    · obtain ⟨r, hr, rfl⟩ := h.stored e hold
      exact ⟨r, List.mem_cons_of_mem _ hr, rfl⟩
  · intro r hr hex
    rcases latest_cons.1 hr with rfl | ⟨hk, hr⟩
    · exact (Store.has_revoke hrv).2 (.inl rfl)
    · exact (Store.has_revoke hrv).2 (.inr ⟨h.kept r hr hex, fun h => hk h.symm⟩)
  · exact h.known
  · refine h.issued.mono ?_
    rintro e ⟨r, hr, rfl⟩
    exact ⟨r, List.mem_cons_of_mem _ hr, rfl⟩

theorem Inv.prune (h : Inv s) : Inv { s with store := s.store.prune (unix s.tenants.now) } where
  valid := h.valid.prune _
  stored e he := h.stored e (Store.has_prune.1 he).1
  kept r hr hex := Store.has_prune.2 ⟨h.kept r hr hex, hex⟩
  known := h.known
  issued := h.issued

theorem from_apply {P : Entry → Prop} {m : RevocationSnapshot} (h : From P m) {now : Int} {es : List Entry}
    (hes : ∀ e ∈ es, P e) (isSnapshot : Bool) : From P (Lifetime.apply now isSnapshot m es) := by
  rw [Lifetime.apply_eq]
  refine From.message ?_ fun e he _ => hes e he
  cases isSnapshot with
  | true => exact From.empty
  | false => exact h.dropExpired now

theorem Inv.deliver (h : Inv s) (isSnapshot : Bool) (delay : Nat) : Inv { s with
            tenants := { s.tenants with now := s.tenants.now + delay }
            registry := Lifetime.apply (unix (s.tenants.now + delay)) isSnapshot s.registry
              (s.store.snapshot (unix s.tenants.now))
            delivered := s.issued } := by
  have hle := Lifetime.le_add_delay s.tenants.now delay
  constructor
  · exact h.valid
  · exact h.stored
  · intro r hr hex
    exact h.kept r hr (Lifetime.unexpired_of_later hle hex)
  · intro r hr hex
    have hst := h.kept r hr (Lifetime.unexpired_of_later hle hex)
    exact Lifetime.known_deliver h.valid hst hle hex isSnapshot s.registry
  · exact from_apply h.issued (fun e he => h.stored e (h.valid.has_of_mem_snapshot he)) isSnapshot

theorem Inv.step {s' : State} {a : Act} (h : Inv s) (hs : step cfg maxRevocationLifetime s a = some s') : Inv s' := by
  cases a with
  | tenant a =>
    obtain ⟨tenants, ht, rfl⟩ := Option.map_eq_some_iff.1 hs
    exact h.later (tenantStep_now ht)
  | revoke tenantSlug req =>
    cases hs
    exact h.revoke maxRevocationLifetime tenantSlug req
  | prune =>
    cases hs
    exact h.prune
  | deliver isSnapshot delay =>
    cases hs
    exact h.deliver isSnapshot delay

theorem inv_run {as : List Act} (hr : run (step cfg maxRevocationLifetime) State.init as = some s) : Inv s :=
  run_invariant Inv (fun _ _ _ hi hs => hi.step hs) Inv.init hr

end Steps

/-! ## What a request is refused for -/

def Refused (gw : Env) (now : Time) (anon tok apiKey : GoStr) : Prop :=
  ∀ res, authenticateRequest gw now anon tok apiKey ≠ .ok res

/-- What else a validated token is refused for: no `jti`, no issue time, an API key that is unknown or another
tenant's. -/
def Unfit (gw : Env) (apiKey : GoStr) (c : Claims) : Prop :=
  c.id = [] ∨ c.issuedAt = none ∨
    apiKey ≠ [] ∧ ∀ info, gw.apiKeys.lookup apiKey = some info → c.matchesTenantUUID info.tenantID = false

section Requests
variable {gw : Env} {now : Time} {anon tok apiKey : GoStr} {v : Validator} {c : Claims} {res : AuthResult}

theorem authenticateRequest_validated (ht : tok ≠ []) (hv : gw.validator = some v)
    (hc : v.validateToken gw.lib now tok = .ok c) (h : authenticateRequest gw now anon tok apiKey = .ok res) :
    res.claims = some c ∧ res.tenantSlug = c.tenantID := by
  unfold authenticateRequest at h
  simp only [ht, false_and, if_false] at h
  split at h
  · simp only [authenticateJWT, hv, hc] at h
    split at h
    · cases h
    · cases h
      exact ⟨rfl, rfl⟩
  · simp only [authenticateBoth, hv, hc] at h
    split at h
    · cases h
    split at h
    · cases h
    split at h
    · cases h
    · cases h
      exact ⟨rfl, rfl⟩

theorem refused_iff_not_admissible (ht : tok ≠ []) (hv : gw.validator = some v)
    (hc : v.validateToken gw.lib now tok = .ok c) : Refused gw now anon tok apiKey ↔ ¬Admissible gw apiKey c := by
  have hok := @authenticateRequest_ok_iff gw c now anon tok apiKey v ht hv hc
  rw [← hok]
  constructor
  · rintro h ⟨res, hr, -⟩
    exact h res hr
  · intro h res hr
    exact h ⟨res, hr, authenticateRequest_validated ht hv hc hr⟩

theorem refused_iff {snap : RevocationSnapshot} (hgw : gw.revocations = some snap) (ht : tok ≠ [])
    (hv : gw.validator = some v) (hc : v.validateToken gw.lib now tok = .ok c) :
    Refused gw now anon tok apiKey ↔
      Unfit gw apiKey c ∨ ∃ iat, c.issuedAt = some iat ∧ isRevoked snap c.id c.subject c.tenantID iat = true := by
  rw [refused_iff_not_admissible ht hv hc]
  constructor
  · intro ha
    by_contra hcn
    rw [not_or] at hcn
    obtain ⟨hf, hr⟩ := hcn
    unfold Unfit at hf
    rw [not_or, not_or] at hf
    obtain ⟨hid, hia, hk⟩ := hf
    obtain ⟨iat, hia⟩ := Option.ne_none_iff_exists'.1 hia
    refine ha ⟨hid, ?_, ?_⟩
    · intro snap' hs
      obtain rfl : snap = snap' := Option.some.inj (hgw.symm.trans hs)
      exact ⟨iat, hia, by_contra fun h => hr ⟨iat, hia, by simpa using h⟩⟩
    · intro hne
      by_contra hn
      refine hk ⟨hne, fun info hi => ?_⟩
      by_contra hm
      exact hn ⟨info, hi, by simpa using hm⟩
  · rintro (hu | ⟨iat, hia, hr⟩) ha
    · rcases hu with hid | hn | ⟨hne, hk⟩
      · exact ha.jti hid
      · obtain ⟨iat, hia, -⟩ := ha.revoked snap hgw
        rw [hn] at hia
        cases hia
      · obtain ⟨info, hi, hm⟩ := ha.apiKey hne
        rw [hk info hi] at hm
        cases hm
    · obtain ⟨iat', hit, hnt⟩ := ha.revoked snap hgw
      obtain rfl : iat = iat' := Option.some.inj (hia.symm.trans hit)
      rw [hr] at hnt
      cases hnt

end Requests

/-! ## Slugs -/

/-- The entry revokes the token, whichever slugs the two carry. -/
def Revokes (e : Entry) (c : Claims) : Prop :=
  match e.type with
  | .token => c.id ≠ [] ∧ e.jti = c.id
  | .user => c.subject ≠ [] ∧ e.sub = c.subject ∧ ∃ iat, c.issuedAt = some iat ∧ iat < e.revokedAt
  | .other _ => False

theorem covers_of_revokes {e : Entry} {c : Claims} (hr : Revokes e c) (hs : e.tenantID = c.tenantID) {iat : Int}
    (hit : c.issuedAt = some iat) : Covers e c.id c.subject c.tenantID iat := by
  unfold Revokes at hr
  unfold Covers
  cases hty : e.type with
  | token =>
    simp only [hty] at hr
    exact ⟨hr.1, hr.2, hs⟩
  | user =>
    simp only [hty] at hr
    obtain ⟨hne, hsb, iat', hi, hlt⟩ := hr
    obtain rfl : iat = iat' := Option.some.inj (hit.symm.trans hi)
    exact ⟨hne, by rw [hs, hsb], hlt⟩
  | other name => simp only [hty] at hr

/-- **A revocation refuses a token under the slug it was recorded with**, in every reachable state, other reasons apart. -/
theorem revoked_token_refused_iff (cfg : Config) (maxRevocationLifetime : Time) (as : List Act) (s : State)
    (hrun : run (step cfg maxRevocationLifetime) State.init as = some s) (gw : Env)
    (hgw : gw.revocations = some s.registry) (v : Validator) (hv : gw.validator = some v) (anon tok apiKey : GoStr)
    (htok : tok ≠ []) (c : Claims) (hc : v.validateToken gw.lib s.tenants.now tok = .ok c) (r : Issued)
    (hexp : unix s.tenants.now < r.entry.expiresAt) (hrev : Revokes r.entry c) :
    Refused gw s.tenants.now anon tok apiKey ↔ Unfit gw apiKey c ∨ (Latest s.delivered r ∧ r.entry.tenantID = c.tenantID) ∨
        ∃ r' ∈ s.issued, Known s.registry r'.entry ∧
          ∃ iat, c.issuedAt = some iat ∧ Covers r'.entry c.id c.subject c.tenantID iat := by
  have hinv : Inv s := inv_run hrun
  rw [refused_iff hgw htok hv hc]
  constructor
  · rintro (hunfit | ⟨iat, hiat, hisrev⟩)
    · exact .inl hunfit
    · obtain ⟨e, ⟨r', hr', rfl⟩, hcov, hknown⟩ := hinv.issued.covers hisrev
      exact .inr (.inr ⟨r', hr', hknown, iat, hiat, hcov⟩)
  · rintro (hunfit | ⟨hlatest, hslug⟩ | ⟨r', -, hknown, iat, hiat, hcov⟩)
    · exact .inl hunfit
    · cases hiat : c.issuedAt with
      | none => exact .inl (.inr (.inl hiat))
      | some iat =>
        have hcov := covers_of_revokes hrev hslug hiat
        exact .inr ⟨iat, rfl, isRevoked_of_known (hinv.known r hlatest hexp) hcov⟩
    · exact .inr ⟨iat, hiat, isRevoked_of_known hknown hcov⟩

def slugClaims (slug : GoStr) : Claims := ⟨str "t-1", str "user", [], some 0, none, slug, [], [], [], [], []⟩

def slugLib : JWTLib where
  parse := fun tok => some ⟨some (str "key-1"), some (str "ES256"), slugClaims tok⟩
  verify := fun _ _ => true
  check := fun _ _ => none

def slugEnv (s : State) : Env where
  lib := slugLib
  validator := some { getKey := fun _ => .ok ⟨str "key-1", str "uuid-1", str "ES256", [], true, none, none⟩
                      requireTenantID := true, allowedAlgorithms := [], allowedIssuers := []
                      tenantResolver := (gatewayOf demoConfig 10 s.tenants).resolveTenantUUID }
  apiKeys := APIKeyRegistry.empty
  revocations := some s.registry
  provider := some (gatewayOf demoConfig 10 s.tenants)

def tokenRevocation : RevocationRequest := ⟨[], str "t-1", none⟩
def createAcme : Act := .tenant (.op (.createTenant (str "acme") (str "uuid-1") none true))
def renameAcme : Act := .tenant (.op (.renameTenant (str "acme") (str "apex") true))

def revokeThenRename : List Act :=
  [createAcme, .revoke (str "acme") tokenRevocation, .tenant (.tick 1), renameAcme, .deliver false 0]

def renameThenRevoke : List Act :=
  [createAcme, .tenant (.tick 1), renameAcme, .revoke (str "apex") tokenRevocation, .deliver false 0]

def acmeRevocation : Issued := ⟨str "uuid-1", tokenRevocation.entry (str "acme") 0 Lifetime.day⟩

theorem revoked_token_refused_iff_oldSlug : ∃ s, run (step demoConfig Lifetime.day) State.init revokeThenRename = some s ∧
      Refused (slugEnv s) s.tenants.now [] (str "acme") [] := by
  obtain ⟨s, hrun, v, hv, c, hc, hlatest, hexp, hclaims⟩ :
      ∃ s, run (step demoConfig Lifetime.day) State.init revokeThenRename = some s ∧
        ∃ v, (slugEnv s).validator = some v ∧ ∃ c, v.validateToken slugLib s.tenants.now (str "acme") = .ok c ∧
          Latest s.delivered acmeRevocation ∧ unix s.tenants.now < acmeRevocation.entry.expiresAt ∧
          c = { slugClaims (str "acme") with resolvedTenantUUID := str "uuid-1" } :=
    ⟨_, rfl, _, rfl, _, rfl, by decide, by decide, by decide⟩
  subst hclaims
  have hrev : Revokes acmeRevocation.entry { slugClaims (str "acme") with resolvedTenantUUID := str "uuid-1" } :=
    ⟨by decide, rfl⟩
  exact ⟨s, hrun, (revoked_token_refused_iff demoConfig Lifetime.day revokeThenRename s hrun (slugEnv s) rfl v hv []
    (str "acme") [] (by decide) _ hc acmeRevocation hexp hrev).2 (.inr (.inl ⟨hlatest, rfl⟩))⟩

/-- **Bug**: a revoked token is accepted with the tenant's other slug, whichever of rename and revocation came first. -/
theorem revoked_token_accepted : (∃ s res, run (step demoConfig Lifetime.day) State.init revokeThenRename = some s ∧
      s.delivered.map Issued.tenantUUID = [str "uuid-1"] ∧
      authenticateRequest (slugEnv s) s.tenants.now [] (str "apex") [] = .ok res ∧ res.tenantUUID = str "uuid-1") ∧
    ∃ s res, run (step demoConfig Lifetime.day) State.init renameThenRevoke = some s ∧
      s.delivered.map Issued.tenantUUID = [str "uuid-1"] ∧
      authenticateRequest (slugEnv s) s.tenants.now [] (str "acme") [] = .ok res ∧ res.tenantUUID = str "uuid-1" :=
  ⟨⟨_, _, rfl, by decide, rfl, by decide⟩, ⟨_, _, rfl, by decide, rfl, by decide⟩⟩

end Sukko.Gateway.Rename
