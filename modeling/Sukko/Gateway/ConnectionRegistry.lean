import Sukko.Gateway.Revocations
import Sukko.Lib.Steps
/-
# Closing the connections of a revoked token

The token index forgets a connection when another one registers, or leaves, with the same `jti`; it does not follow a refresh
that changes the `jti`, and it does not know tenants. `confined` names these four.
-/

namespace Sukko.Gateway
open ProvApi Replica Steps Option

abbrev ConnID := Nat

structure ConnectionRegistry where
  bySubject : GoStr → Finset ConnID
  byJTI : Map GoStr ConnID

namespace ConnectionRegistry

def new : ConnectionRegistry := ⟨fun _ => ∅, Map.empty⟩

/-- See `gateway/connection_registry.go:43`. -/
def register (r : ConnectionRegistry) (conn : ConnID) (tenantID sub jti : GoStr) : ConnectionRegistry where
  byJTI := if jti ≠ [] then r.byJTI.set jti conn else r.byJTI
  bySubject :=
    if sub ≠ [] then
      Function.update r.bySubject (subKey tenantID sub) (insert conn (r.bySubject (subKey tenantID sub)))
    else r.bySubject

/-- See `gateway/connection_registry.go:61`. -/
def unregister (r : ConnectionRegistry) (conn : ConnID) (tenantID sub jti : GoStr) : ConnectionRegistry where
  byJTI := if jti ≠ [] then r.byJTI.delete jti else r.byJTI
  bySubject :=
    if sub ≠ [] then
      Function.update r.bySubject (subKey tenantID sub) ((r.bySubject (subKey tenantID sub)).erase conn)
    else r.bySubject

def findByJTI (r : ConnectionRegistry) (jti : GoStr) : Option ConnID := r.byJTI jti
def findBySub (r : ConnectionRegistry) (tenantID sub : GoStr) : Finset ConnID := r.bySubject (subKey tenantID sub)

end ConnectionRegistry

inductive Transport where
  | ws
  | sse
deriving DecidableEq

inductive CloseReason where
  | tokenRevoked
  | userRevoked
deriving DecidableEq

structure Connection where
  transport : Transport
  proxy : Proxy
  registered : Option (GoStr × GoStr)
  closed : Option CloseReason
deriving DecidableEq

namespace Connection

def sub (c : Connection) : GoStr := c.proxy.claims.elim [] (·.subject)
def jti (c : Connection) : GoStr := c.proxy.claims.elim [] (·.id)
def iat (c : Connection) : Int := (c.proxy.claims.bind (·.issuedAt)).getD 0
def forceClose (c : Connection) (reason : CloseReason) : Connection := { c with closed := c.closed <|> some reason }

end Connection

structure Conns where
  registry : ConnectionRegistry
  conns : Map ConnID Connection

namespace Conns

def init : Conns := ⟨ConnectionRegistry.new, Map.empty⟩

def modify (g : Conns) (id : ConnID) (f : Connection → Connection) : Conns :=
  { g with conns := Function.update g.conns id ((g.conns id).map f) }

def registration (res : AuthResult) : Option (GoStr × GoStr) :=
  if res.apiKeyOnly then none else res.claims.map fun c => (c.subject, c.id)

def connect (g : Conns) (id : ConnID) (transport : Transport) (res : AuthResult) (maxPublishSize maxFrameSize : Int) : Conns where
  conns := g.conns.set id ⟨transport, openProxy res maxPublishSize maxFrameSize, registration res, none⟩
  registry :=
    match registration res with
    | some (sub, jti) => g.registry.register id res.tenantSlug sub jti
    | none => g.registry

def disconnect (g : Conns) (id : ConnID) (c : Connection) : Conns where
  conns := g.conns.delete id
  registry :=
    match c.registered with
    | some (sub, jti) => g.registry.unregister id c.proxy.tenantID sub jti
    | none => g.registry

/-- See `gateway/gateway.go:714`. -/
def handleRevocation (g : Conns) (entry : RevocationEntry) : Conns :=
  match entry.type with
  | .token =>
    match g.registry.findByJTI entry.jti with
    | none => g
    | some id => g.modify id (·.forceClose .tokenRevoked)
  | .user =>
    { g with conns := fun id =>
        if id ∈ g.registry.findBySub entry.tenantID entry.sub then
          (g.conns id).map fun c => if entry.revokedAt ≤ c.iat then c else c.forceClose .userRevoked
        else g.conns id }
  | .other _ => g

/-- See `gateway/gateway.go:772`. -/
def recheckRevocationAfterRegister (snap : RevocationSnapshot) (tenantID : GoStr) (c : Connection) : Connection :=
  if isRevoked snap c.jti c.sub tenantID c.iat then
    c.forceClose (if isRevoked snap c.jti [] tenantID c.iat then .tokenRevoked else .userRevoked)
  else c

end Conns

inductive ConnAct where
  | connect (id : ConnID) (transport : Transport) (env : Env) (now : Time) (anon token apiKey : GoStr)
      (maxPublishSize maxFrameSize : Int)
  | recheck (id : ConnID) (snap : RevocationSnapshot)
  | refresh (id : ConnID) (env : Env) (now : Time) (allow : Bool) (token : Option GoStr)
  | revoke (entry : RevocationEntry)
  | disconnect (id : ConnID)

namespace Conns

def step (g : Conns) : ConnAct → Option Conns
  | .connect id transport env now anon token apiKey maxPublishSize maxFrameSize =>
    if g.conns id ≠ none then none
    else
      match authenticateRequest env now anon token apiKey with
      | .error _ => some g
      | .ok res => some (g.connect id transport res maxPublishSize maxFrameSize)
  | .recheck id snap =>
    match g.conns id with
    | none => none
    | some c => some (g.modify id (recheckRevocationAfterRegister snap c.proxy.tenantID))
  | .refresh id env now allow token =>
    match g.conns id with
    | none => none
    | some c =>
      if c.transport ≠ .ws then none
      else
        match interceptAuthRefresh env now allow token c.proxy with
        | .denied _ => some g
        | .swapped p _ _ => some (g.modify id fun c => { c with proxy := p })
  | .revoke entry => some (g.handleRevocation entry)
  | .disconnect id =>
    match g.conns id with
    | none => none
    | some c => some (g.disconnect id c)

/-- What keeps the token index exact: no two registered connections share a `jti`, refreshes keep it, and a token is revoked by
its own tenant. -/
def confined (g : Conns) : ConnAct → Bool
  | .connect _ _ env now anon token apiKey _ _ =>
    match authenticateRequest env now anon token apiKey with
    | .error _ => true
    | .ok res => (registration res).all fun r => (g.registry.findByJTI r.2).isNone
  | .refresh id env now allow token =>
    (g.conns id).all fun c =>
      match interceptAuthRefresh env now allow token c.proxy with
      | .denied _ => true
      | .swapped p _ _ => c.registered.all fun r => p.claims.any (·.id == r.2)
  | .revoke entry =>
    entry.type ≠ .token || (g.registry.findByJTI entry.jti).all fun id =>
      (g.conns id).all (·.proxy.tenantID == entry.tenantID)
  | _ => true

/-! ## The token index -/

structure Indexed (g : Conns) : Prop where
  found : ∀ id c sub jti, g.conns id = some c → c.registered = some (sub, jti) →
    jti ≠ [] ∧ g.registry.findByJTI jti = some id ∧ c.jti = jti
  owned : ∀ jti id, g.registry.findByJTI jti = some id → ∃ c sub, g.conns id = some c ∧ c.registered = some (sub, jti)

theorem indexed_init : Indexed init where
  found _ _ _ _ h := by cases h
  owned _ _ h := by cases h

section Modify
variable {g : Conns} {id id' : ConnID} {f : Connection → Connection}

theorem conns_modify_self : (g.modify id f).conns id = (g.conns id).map f := by simp [modify]
theorem conns_modify_of_ne (h : id' ≠ id) : (g.modify id f).conns id' = g.conns id' := by simp [modify, h]

theorem Indexed.modify (h : Indexed g) (id : ConnID) {f : Connection → Connection} (hrg : ∀ c, (f c).registered = c.registered)
    (hjt : ∀ c, g.conns id = some c → c.registered.isSome = true → (f c).jti = c.jti) : Indexed (g.modify id f) where
  found id' c' sub jti hc hr := by
    by_cases hid : id' = id
    · subst hid
      rw [conns_modify_self] at hc
      obtain ⟨c, hg, rfl⟩ := map_eq_some_iff.1 hc
      rw [hrg] at hr
      obtain ⟨hne, hf, hj⟩ := h.found id' c sub jti hg hr
      exact ⟨hne, hf, (hjt c hg (by rw [hr]; rfl)).trans hj⟩
    · rw [conns_modify_of_ne hid] at hc
      exact h.found id' c' sub jti hc hr
  owned jti id' hf := by
    obtain ⟨c, sub, hg, hr⟩ := h.owned jti id' hf
    by_cases hid : id' = id
    · subst hid
      exact ⟨f c, sub, by rw [conns_modify_self, hg]; rfl, by rw [hrg, hr]⟩
    · exact ⟨c, sub, by rw [conns_modify_of_ne hid]; exact hg, hr⟩

end Modify

section Recheck
variable (snap : RevocationSnapshot) (tenantID : GoStr) (c : Connection)

theorem recheck_registered : (recheckRevocationAfterRegister snap tenantID c).registered = c.registered := by
  unfold recheckRevocationAfterRegister; split <;> rfl

theorem recheck_jti : (recheckRevocationAfterRegister snap tenantID c).jti = c.jti := by
  unfold recheckRevocationAfterRegister; split <;> rfl

end Recheck

variable {anon apiKey jti sub token : GoStr} {env : Env} {now : Time} {res : AuthResult} {id conn : ConnID} {r : ConnectionRegistry}
  {transport : Transport} {c : Connection}

theorem registration_jti (h : authenticateRequest env now anon token apiKey = .ok res)
    (hr : registration res = some (sub, jti)) : jti ≠ [] ∧ ∃ c, res.claims = some c ∧ c.id = jti := by
  unfold registration at hr
  split at hr
  · cases hr
  obtain ⟨c, hc, hcr⟩ := map_eq_some_iff.1 hr
  cases hcr
  exact ⟨(admitClaims_ok_iff.1 (authenticateRequest_claims h hc).1).1, c, hc, rfl⟩

theorem findByJTI_register {tenantID jti' : GoStr} (hne : jti ≠ []) :
    (r.register conn tenantID sub jti).findByJTI jti' = if jti' = jti then some conn else r.findByJTI jti' := by
  simp only [ConnectionRegistry.findByJTI, ConnectionRegistry.register, hne, ne_eq, not_false_eq_true, if_true]
  split
  · rename_i h; rw [h, Map.set_self]
  · rename_i h; exact Map.set_of_ne _ _ h

theorem findByJTI_unregister {tenantID jti' : GoStr} (hne : jti ≠ []) :
    (r.unregister conn tenantID sub jti).findByJTI jti' = if jti' = jti then none else r.findByJTI jti' := by
  simp only [ConnectionRegistry.findByJTI, ConnectionRegistry.unregister, hne, ne_eq, not_false_eq_true, if_true]
  split
  · rename_i h; rw [h, Map.delete_self]
  · rename_i h; exact Map.delete_of_ne _ h

variable {g : Conns}

theorem findByJTI_connect {maxPublishSize maxFrameSize : Int}
    (hr : authenticateRequest env now anon token apiKey = .ok res) (jti : GoStr) :
    (g.connect id transport res maxPublishSize maxFrameSize).registry.findByJTI jti =
      if (registration res).map Prod.snd = some jti then some id else g.registry.findByJTI jti := by
  simp only [Conns.connect]
  cases hrg : registration res with
  | none => simp
  | some r =>
    obtain ⟨hne, -⟩ := registration_jti hr hrg
    simp only [findByJTI_register hne, map_some, Option.some.injEq, eq_comm]

theorem Indexed.findByJTI_disconnect (h : Indexed g) (hc : g.conns id = some c)
    (jti : GoStr) : (g.disconnect id c).registry.findByJTI jti =
      if c.registered.map Prod.snd = some jti then none else g.registry.findByJTI jti := by
  simp only [Conns.disconnect]
  cases hr : c.registered with
  | none => simp
  | some r =>
    obtain ⟨hne, -⟩ := h.found id c r.1 r.2 hc hr
    simp only [findByJTI_unregister hne, map_some, Option.some.injEq, eq_comm]

theorem Indexed.connect (h : Indexed g) (maxPublishSize maxFrameSize : Int)
    (hid : g.conns id = none) (hrs : authenticateRequest env now anon token apiKey = .ok res)
    (hfr : ∀ sub jti, registration res = some (sub, jti) → g.registry.findByJTI jti = none) :
    Indexed (g.connect id transport res maxPublishSize maxFrameSize) where
  found id' c' sub jti hc hr := by
    rw [findByJTI_connect hrs]
    by_cases hi : id' = id
    · subst hi
      simp only [Conns.connect, Map.set_self] at hc
      cases hc
      simp only at hr
      obtain ⟨hne, c, hcl, hcd⟩ := registration_jti hrs hr
      refine ⟨hne, if_pos (by rw [hr]; rfl), ?_⟩
      simp [Connection.jti, openProxy, hcl, hcd]
    · simp only [Conns.connect, Map.set_of_ne _ _ hi] at hc
      obtain ⟨hne, hf, hj⟩ := h.found id' c' sub jti hc hr
      refine ⟨hne, ?_, hj⟩
      rw [if_neg, hf]
      intro hs
      obtain ⟨⟨sub', jti'⟩, hrg, rfl⟩ := map_eq_some_iff.1 hs
      rw [hfr sub' jti' hrg] at hf
      cases hf
  owned jti id' hf := by
    rw [findByJTI_connect hrs] at hf
    split at hf
    · rename_i hs
      cases hf
      obtain ⟨⟨sub, jti'⟩, hrg, rfl⟩ := map_eq_some_iff.1 hs
      exact ⟨_, sub, Map.set_self .., hrg⟩
    · obtain ⟨c, sub, hc, hr⟩ := h.owned jti id' hf
      have hi : id' ≠ id := fun heq => by rw [heq, hid] at hc; cases hc
      exact ⟨c, sub, by simp only [Conns.connect, Map.set_of_ne _ _ hi]; exact hc, hr⟩

theorem Indexed.disconnect (h : Indexed g) (hc : g.conns id = some c) : Indexed (g.disconnect id c) where
  found id' c' sub jti hc' hr := by
    have hi : id' ≠ id := fun heq => by
      subst heq
      simp only [Conns.disconnect, Map.delete_self] at hc'
      cases hc'
    simp only [Conns.disconnect, Map.delete_of_ne _ hi] at hc'
    obtain ⟨hne, hf, hj⟩ := h.found id' c' sub jti hc' hr
    refine ⟨hne, ?_, hj⟩
    rw [h.findByJTI_disconnect hc, if_neg, hf]
    -- the entry that goes is this connection's own
    intro hs
    obtain ⟨⟨sub', jti'⟩, hrg, rfl⟩ := map_eq_some_iff.1 hs
    obtain ⟨-, hm, -⟩ := h.found id c sub' jti' hc hrg
    rw [hm] at hf
    exact hi (Option.some.inj hf).symm
  owned jti id' hf := by
    rw [h.findByJTI_disconnect hc] at hf
    split at hf
    · cases hf
    rename_i hrg
    obtain ⟨c', sub, hc', hr⟩ := h.owned jti id' hf
    have hi : id' ≠ id := fun heq => by
      rw [heq, hc] at hc'
      cases hc'
      exact hrg (by rw [hr]; rfl)
    exact ⟨c', sub, by simp only [Conns.disconnect, Map.delete_of_ne _ hi]; exact hc', hr⟩

theorem handleRevocation_conns (g : Conns) (entry : RevocationEntry) (id : ConnID) :
    (g.handleRevocation entry).conns id = g.conns id ∨
      ∃ reason, (g.handleRevocation entry).conns id = (g.conns id).map (·.forceClose reason) := by
  unfold handleRevocation
  split
  · split
    · exact .inl rfl
    · rename_i found _
      by_cases hid : id = found
      · subst hid; exact .inr ⟨_, conns_modify_self⟩
      · exact .inl (conns_modify_of_ne hid)
  · dsimp only
    split
    · cases hc : g.conns id with
      | none => exact .inl rfl
      | some c =>
        simp only [map_some]
        split
        · exact .inl rfl
        · exact .inr ⟨_, rfl⟩
    · exact .inl rfl
  · exact .inl rfl

theorem handleRevocation_registry (g : Conns) (entry : RevocationEntry) : (g.handleRevocation entry).registry = g.registry := by
  unfold handleRevocation
  split
  · split <;> rfl
  · rfl
  · rfl

theorem Indexed.handleRevocation (h : Indexed g) (entry : RevocationEntry) : Indexed (g.handleRevocation entry) where
  found id c' sub jti hc hr := by
    rw [handleRevocation_registry]
    rcases handleRevocation_conns g entry id with hs | ⟨reason, hcl⟩
    · exact h.found id c' sub jti (hs ▸ hc) hr
    · rw [hcl] at hc
      obtain ⟨c, hg, rfl⟩ := map_eq_some_iff.1 hc
      exact h.found id c sub jti hg hr
  owned jti id hf := by
    rw [handleRevocation_registry] at hf
    obtain ⟨c, sub, hc, hr⟩ := h.owned jti id hf
    rcases handleRevocation_conns g entry id with hs | ⟨reason, hcl⟩
    · exact ⟨c, sub, by rw [hs]; exact hc, hr⟩
    · exact ⟨c.forceClose reason, sub, by rw [hcl, hc]; rfl, hr⟩

theorem Indexed.step {g g' : Conns} {a : ConnAct} (h : Indexed g) (hok : confined g a = true) (hs : step g a = some g') :
    Indexed g' := by
  cases a with simp only [Conns.step] at hs
  | connect id transport env now anon token apiKey maxPublishSize maxFrameSize =>
    simp only [confined] at hok
    split at hs
    · cases hs
    rename_i hid
    cases hrs : authenticateRequest env now anon token apiKey with
    | error e => rw [hrs] at hs; cases hs; exact h
    | ok res =>
      rw [hrs] at hs hok
      cases hs
      refine h.connect maxPublishSize maxFrameSize (not_not.1 hid) hrs fun sub jti hr => ?_
      simpa [hr] using hok
  | recheck id snap =>
    cases hc : g.conns id with
    | none => rw [hc] at hs; cases hs
    | some c =>
      rw [hc] at hs
      cases hs
      exact h.modify id (recheck_registered snap _) fun c' _ _ => recheck_jti snap _ c'
  | refresh id env now allow token =>
    simp only [confined] at hok
    cases hc : g.conns id with
    | none => rw [hc] at hs; cases hs
    | some c =>
      rw [hc] at hs hok
      simp only at hs
      split at hs
      · cases hs
      cases hrf : interceptAuthRefresh env now allow token c.proxy with
      | denied code => rw [hrf] at hs; cases hs; exact h
      | swapped p revoked exp =>
        rw [hrf] at hs
        simp only [all_some, hrf] at hok
        cases hs
        refine h.modify id (fun _ => rfl) fun c' hc' hsm => ?_
        rw [hc] at hc'
        cases hc'
        obtain ⟨r, hr⟩ := isSome_iff_exists.1 hsm
        obtain ⟨-, -, hj⟩ := h.found id c r.1 r.2 hc hr
        simp only [hr, all_some] at hok
        cases hcl : p.claims with
        | none => simp [hcl] at hok
        | some cl =>
          have hid : cl.id = r.2 := by simpa [hcl] using hok
          rw [hj]
          simp [Connection.jti, hcl, hid]
  | revoke entry =>
    cases hs
    exact h.handleRevocation entry
  | disconnect id =>
    cases hc : g.conns id with
    | none => rw [hc] at hs; cases hs
    | some c => rw [hc] at hs; cases hs; exact h.disconnect hc

/-- **Token revocation is complete and tenant-confined** in every run that is `confined`. -/
theorem token_revocation_confined {as : List ConnAct} {g : Conns} (hrun : run step init as = some g)
    (hok : Along step (fun g a => confined g a = true) init as) (entry : RevocationEntry) (hty : entry.type = .token)
    (hnow : confined g (.revoke entry) = true) :
    (∀ id c, g.conns id = some c → c.registered.isSome = true → c.proxy.tenantID = entry.tenantID → c.jti = entry.jti →
      ∃ c', (g.handleRevocation entry).conns id = some c' ∧ c'.closed.isSome = true) ∧
    ∀ id c, g.conns id = some c → c.proxy.tenantID ≠ entry.tenantID → (g.handleRevocation entry).conns id = some c := by
  have hinv : Indexed g := run_invariant_along Indexed (fun _ _ _ h hc hs => h.step hc hs) indexed_init hok hrun
  constructor
  · intro id c hc hreg hten hjti
    obtain ⟨r, hr⟩ := isSome_iff_exists.1 hreg
    obtain ⟨-, hfind, hj⟩ := hinv.found id c r.1 r.2 hc hr
    rw [← hj, hjti] at hfind
    refine ⟨c.forceClose .tokenRevoked, ?_, ?_⟩
    · simp only [handleRevocation, hty, hfind, conns_modify_self, hc, map_some]
    · cases hcl : c.closed <;> simp [Connection.forceClose, hcl]
  · intro id c hc hten
    simp only [handleRevocation, hty]
    cases hfind : g.registry.findByJTI entry.jti with
    | none => exact hc
    | some found =>
      have hne : id ≠ found := fun heq => by
        subst heq
        simp only [confined, hty, hfind, hc, all_some] at hnow
        exact hten (by simpa using hnow)
      rw [conns_modify_of_ne hne]
      exact hc

def tenantEnv (tenant : GoStr) : Env :=
  { demoEnv with
    lib := { demoLib with parse := fun tok => some ⟨some (str "key-1"), some (str "ES256"), { demoClaims tok with tenantID := tenant }⟩ }
    validator := demoEnv.validator.map fun v => { v with tenantResolver := fun _ => some (str "uuid-1") } }

def demoConnect (id : ConnID) (transport : Transport) (tenant tok : GoStr) : ConnAct :=
  .connect id transport (tenantEnv tenant) 0 [] tok [] 65536 65536

def tokenRevocation (tenant jti : GoStr) : RevocationEntry := ⟨tenant, .token, [], jti, 20, 100, false⟩

def confinedRun : List ConnAct :=
  [demoConnect 0 .ws (str "acme") (str "t-1"), demoConnect 1 .sse (str "acme") (str "t-2"),
    .refresh 0 (tenantEnv (str "acme")) 5 true (some (str "t-1")), demoConnect 2 .ws (str "globex") (str "t-3")]

theorem token_revocation_confined_confinedRun : ∃ g, run step init confinedRun = some g ∧
    Along step (fun g a => confined g a = true) init confinedRun ∧
    confined g (.revoke (tokenRevocation (str "acme") (str "t-1"))) = true ∧
    (∃ c', (g.handleRevocation (tokenRevocation (str "acme") (str "t-1"))).conns 0 = some c' ∧ c'.closed.isSome = true) ∧
    (g.handleRevocation (tokenRevocation (str "acme") (str "t-1"))).conns 2 = g.conns 2 := by
  refine ⟨_, rfl, by decide, by decide, ?_, ?_⟩
  · exact (@token_revocation_confined confinedRun _ rfl (by decide) (tokenRevocation (str "acme") (str "t-1")) rfl
      (by decide)).1 0 _ rfl rfl (by decide) (by decide)
  · exact (@token_revocation_confined confinedRun _ rfl (by decide) (tokenRevocation (str "acme") (str "t-1")) rfl
      (by decide)).2 2 _ rfl (by decide)

/-- **Bug**: two connections carry the same token; its revocation closes only the one that registered last. -/
theorem shared_token_stays_open : ∃ g c,
    run step init [demoConnect 0 .ws (str "acme") (str "t-1"), demoConnect 1 .ws (str "acme") (str "t-1")] = some g ∧
    g.conns 0 = some c ∧ c.registered.isSome = true ∧ c.proxy.tenantID = str "acme" ∧ c.jti = str "t-1" ∧
    ∃ c', (g.handleRevocation (tokenRevocation (str "acme") (str "t-1"))).conns 0 = some c' ∧ c'.closed = none :=
  ⟨_, _, rfl, rfl, by decide, by decide, by decide, _, rfl, by decide⟩

end Conns
end Sukko.Gateway
