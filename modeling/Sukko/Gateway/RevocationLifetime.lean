import Sukko.Gateway.Revocations
import Sukko.Lib.Steps
/-
# How long a revocation lasts

The validator knows nothing of the expiry of a revocation: it bounds neither the lifetime of a token nor asks for an `exp`
claim. A message is loaded and, some time later, applied.
-/

namespace Sukko.Revocation
open ProvApi

structure RevocationRequest where
  sub : GoStr
  jti : GoStr
  exp : Option Int
deriving DecidableEq

inductive HandleErr where
  | oneRequired
  | notBoth
  | store (e : RevokeErr)
deriving DecidableEq

def RevocationRequest.entry (req : RevocationRequest) (tenantSlug : GoStr) (now maxRevocationLifetime : Time) :
    Entry :=
  let maxExp := unix (now + maxRevocationLifetime)
  { tenantID := tenantSlug
    type := if req.jti ≠ [] then .token else .user
    sub := req.sub
    jti := req.jti
    revokedAt := unix now
    expiresAt :=
      match req.exp with
      | some exp => if unix now < exp ∧ exp < maxExp then exp else maxExp
      | none => maxExp }

/-- See `provisioning/api/revocation_handler.go:80`. -/
def handleRevoke (s : Store) (tenantSlug : GoStr) (req : RevocationRequest) (now maxRevocationLifetime : Time) :
    Except HandleErr Store :=
  if req.sub = [] ∧ req.jti = [] then .error .oneRequired
  else if req.sub ≠ [] ∧ req.jti ≠ [] then .error .notBoth
  else (s.revoke (req.entry tenantSlug now maxRevocationLifetime)).mapError .store

theorem handleRevoke_ok {s s' : Store} {tenantSlug : GoStr} {req : RevocationRequest} {now maxRevocationLifetime : Time}
    (h : handleRevoke s tenantSlug req now maxRevocationLifetime = .ok s') :
    s.revoke (req.entry tenantSlug now maxRevocationLifetime) = .ok s' := by
  unfold handleRevoke at h
  split at h
  · cases h
  split at h
  · cases h
  cases hs : s.revoke (req.entry tenantSlug now maxRevocationLifetime) with
  | ok store =>
    rw [hs] at h
    cases h
    rfl
  | error e =>
    rw [hs] at h
    cases h

end Sukko.Revocation

namespace Sukko.Gateway
open Replica Revocation Steps Auth ProvApi

/-! ## What a message leaves in the registry -/

/-- The entry revokes a token with these claims. -/
def Covers (e : Entry) (jti sub tenantID : GoStr) (iat : Int) : Prop :=
  match e.type with
  | .token => jti ≠ [] ∧ e.jti = jti ∧ e.tenantID = tenantID
  | .user => sub ≠ [] ∧ subKey e.tenantID e.sub = subKey tenantID sub ∧ iat < e.revokedAt
  | .other _ => False

def Known (m : RevocationSnapshot) (e : Entry) : Prop :=
  match e.type with
  | .token => m.jtiRevocations e.jti = some ⟨e.tenantID, e.expiresAt⟩
  | .user => m.subRevocations (subKey e.tenantID e.sub) = some ⟨e.revokedAt, e.expiresAt⟩
  | .other _ => True

variable {e e' : Entry} {s : Store} {iat : Int} {tenantID : GoStr}

theorem isRevoked_of_known {m : RevocationSnapshot} {jti sub : GoStr} (hk : Known m e)
    (hc : Covers e jti sub tenantID iat) : isRevoked m jti sub tenantID iat = true := by
  unfold Known at hk
  unfold Covers at hc
  unfold isRevoked
  cases hty : e.type with
  | token =>
    simp only [hty] at hk hc
    obtain ⟨hne, rfl, rfl⟩ := hc
    simp [hne, hk]
  | user =>
    simp only [hty] at hk hc
    obtain ⟨hne, hky, hi⟩ := hc
    rw [hky] at hk
    simp [hne, hk, hi]
  | other name => simp only [hty] at hc

def tokenWrites (now : Int) (es : List Entry) : List (GoStr × JTIEntry) :=
  es.filterMap fun e =>
    if e.type = .token ∧ now < e.expiresAt then some (e.jti, ⟨e.tenantID, e.expiresAt⟩) else none

def userWrites (now : Int) (es : List Entry) : List (GoStr × SubEntry) :=
  es.filterMap fun e =>
    if e.type = .user ∧ now < e.expiresAt then some (subKey e.tenantID e.sub, ⟨e.revokedAt, e.expiresAt⟩) else none

/-- **A message of stored entries is a list of writes to each map.** -/
theorem foldl_applyDeltaEntry (now : Int) (es : List Entry) (m : RevocationSnapshot) :
    (convertRevocationEntries es).foldl (applyDeltaEntry now) m =
      ⟨m.jtiRevocations.setAll (tokenWrites now es), m.subRevocations.setAll (userWrites now es)⟩ := by
  induction es generalizing m with
  | nil => rfl
  | cons e es ih =>
    have hs : (convertRevocationEntries (e :: es)).foldl (applyDeltaEntry now) m =
        (convertRevocationEntries es).foldl (applyDeltaEntry now) (applyDeltaEntry now m e.toProto) := rfl
    rw [hs, ih]
    unfold applyDeltaEntry RevocationSnapshot.put tokenWrites userWrites
    by_cases he : now < e.expiresAt
    · cases hty : e.type <;> simp [Entry.toProto, he, hty]
    · simp [Entry.toProto, he]

theorem eq_of_jti (h : s.has e = true) (h' : s.has e' = true) (hty : e.type = .token) (ht : e'.type = .token)
    (hj : e.jti = e'.jti) : e = e' := by
  have hk : e.key = e'.key := by simp only [Entry.key, hty, ht, hj]
  simp only [Store.has, decide_eq_true_iff] at h h'
  rw [hk, h'] at h
  exact (Option.some.inj h).symm

theorem eq_of_subKey (h : s.has e = true) (h' : s.has e' = true) (hty : e.type = .user) (ht : e'.type = .user)
    (hs : subKey e.tenantID e.sub = subKey e'.tenantID e'.sub) : e = e' := by
  have hk : e.key = e'.key := by
    unfold subKey at hs
    simp only [Entry.key, hty, ht, List.append_assoc] at hs ⊢
    rw [hs]
  simp only [Store.has, decide_eq_true_iff] at h h'
  rw [hk, h'] at h
  exact (Option.some.inj h).symm

theorem known_apply {now : Int} {es : List Entry} {m : RevocationSnapshot} (hes : ∀ e ∈ es, s.has e = true) (he : e ∈ es)
    (hex : now < e.expiresAt) : Known ((convertRevocationEntries es).foldl (applyDeltaEntry now) m) e := by
  rw [foldl_applyDeltaEntry]
  unfold Known
  cases hty : e.type with
  | token =>
    have hm : (e.jti, (⟨e.tenantID, e.expiresAt⟩ : JTIEntry)) ∈ tokenWrites now es :=
      List.mem_filterMap.2 ⟨e, he, if_pos ⟨hty, hex⟩⟩
    obtain ⟨v, hv, hset⟩ := Map.setAll_of_mem (List.mem_map_of_mem hm)
    obtain ⟨e', he', hw⟩ := List.mem_filterMap.1 hv
    rw [guarded, Prod.mk.injEq] at hw
    obtain ⟨⟨ht, -⟩, hj, rfl⟩ := hw
    have heq : e' = e := eq_of_jti (hes e' he') (hes e he) ht hty hj
    exact heq ▸ hset m.jtiRevocations
  | user =>
    have hm : (subKey e.tenantID e.sub, (⟨e.revokedAt, e.expiresAt⟩ : SubEntry)) ∈ userWrites now es :=
      List.mem_filterMap.2 ⟨e, he, if_pos ⟨hty, hex⟩⟩
    obtain ⟨v, hv, hset⟩ := Map.setAll_of_mem (List.mem_map_of_mem hm)
    obtain ⟨e', he', hw⟩ := List.mem_filterMap.1 hv
    rw [guarded, Prod.mk.injEq] at hw
    obtain ⟨⟨ht, -⟩, hs, rfl⟩ := hw
    have heq : e' = e := eq_of_subKey (hes e' he') (hes e he) ht hty hs
    exact heq ▸ hset m.subRevocations
  | other name => trivial

structure From (P : Entry → Prop) (m : RevocationSnapshot) : Prop where
  token : ∀ jti v, m.jtiRevocations jti = some v →
    ∃ e, P e ∧ e.type = .token ∧ e.jti = jti ∧ v = ⟨e.tenantID, e.expiresAt⟩
  user : ∀ key v, m.subRevocations key = some v →
    ∃ e, P e ∧ e.type = .user ∧ subKey e.tenantID e.sub = key ∧ v = ⟨e.revokedAt, e.expiresAt⟩

namespace From
variable {P Q : Entry → Prop} {m : RevocationSnapshot} {now : Int} {es : List Entry}

theorem empty : From P RevocationSnapshot.empty where
  token _ _ h := by cases h
  user _ _ h := by cases h

variable (h : From P m)
include h

theorem mono (hPQ : ∀ e, P e → Q e) : From Q m where
  token jti v hv := (h.token jti v hv).imp fun e he => ⟨hPQ e he.1, he.2⟩
  user key v hv := (h.user key v hv).imp fun e he => ⟨hPQ e he.1, he.2⟩

theorem dropExpired (now : Int) : From P (m.dropExpired now) where
  token jti v hv := h.token jti v (Option.filter_eq_some_iff.1 hv).1
  user key v hv := h.user key v (Option.filter_eq_some_iff.1 hv).1

theorem message (hes : ∀ e ∈ es, now < e.expiresAt → P e) :
    From P ((convertRevocationEntries es).foldl (applyDeltaEntry now) m) := by
  rw [foldl_applyDeltaEntry]
  constructor
  · intro jti v hv
    rcases Map.mem_of_setAll_eq_some hv with hw | hold
    · obtain ⟨e, he, hw⟩ := List.mem_filterMap.1 hw
      rw [guarded, Prod.mk.injEq] at hw
      obtain ⟨⟨hty, hex⟩, hj, hvl⟩ := hw
      exact ⟨e, hes e he hex, hty, hj, hvl.symm⟩
    · exact h.token jti v hold
  · intro key v hv
    rcases Map.mem_of_setAll_eq_some hv with hw | hold
    · obtain ⟨e, he, hw⟩ := List.mem_filterMap.1 hw
      rw [guarded, Prod.mk.injEq] at hw
      obtain ⟨⟨hty, hex⟩, hk, hvl⟩ := hw
      exact ⟨e, hes e he hex, hty, hk, hvl.symm⟩
    · exact h.user key v hold

theorem covers {jti sub : GoStr} (hr : isRevoked m jti sub tenantID iat = true) :
    ∃ e, P e ∧ Covers e jti sub tenantID iat ∧ Known m e := by
  unfold isRevoked at hr
  rw [Bool.or_eq_true, Bool.and_eq_true, Bool.and_eq_true, Option.any_eq_true, Option.any_eq_true] at hr
  rcases hr with ⟨hne, entry, hg, ht⟩ | ⟨hne, entry, hg, hi⟩
  · obtain ⟨e, he, hty, rfl, rfl⟩ := h.token jti entry hg
    refine ⟨e, he, ?_, ?_⟩
    · unfold Covers
      rw [hty]
      exact ⟨of_decide_eq_true hne, rfl, eq_of_beq ht⟩
    · unfold Known
      rw [hty]
      exact hg
  · obtain ⟨e, he, hty, hk, rfl⟩ := h.user _ entry hg
    refine ⟨e, he, ?_, ?_⟩
    · unfold Covers
      rw [hty]
      exact ⟨of_decide_eq_true hne, hk, of_decide_eq_true hi⟩
    · unfold Known
      rw [hty]
      exact hk ▸ hg

end From

theorem covers_of_isRevoked {now : Int} {es : List Entry} {jti sub : GoStr}
    (h : isRevoked ((convertRevocationEntries es).foldl (applyDeltaEntry now) RevocationSnapshot.empty)
      jti sub tenantID iat = true) : ∃ e ∈ es, Covers e jti sub tenantID iat ∧ now < e.expiresAt := by
  have hf : From (fun e => e ∈ es ∧ now < e.expiresAt)
      ((convertRevocationEntries es).foldl (applyDeltaEntry now) RevocationSnapshot.empty) :=
    From.empty.message fun e he hex => ⟨he, hex⟩
  obtain ⟨e, ⟨he, hex⟩, hc, -⟩ := hf.covers h
  exact ⟨e, he, hc, hex⟩

/-! ## After a revocation -/

namespace Lifetime

structure State where
  now : Time
  store : Store
  registry : RevocationSnapshot
  delivered : Bool

inductive Act
  | tick (d : Nat)
  | prune
  | revoke (tenantSlug : GoStr) (req : RevocationRequest) (maxRevocationLifetime : Time)
  | deliver (isSnapshot : Bool) (delay : Nat)
deriving DecidableEq

def apply (now : Int) (isSnapshot : Bool) (m : RevocationSnapshot) (es : List Entry) : RevocationSnapshot :=
  if isSnapshot then applySnapshot now (convertRevocationEntries es)
  else applyDelta now m (convertRevocationEntries es)

def step (s : State) : Act → Option State
  | .tick d => some { s with now := s.now + d }
  | .prune => some { s with store := s.store.prune (unix s.now) }
  | .revoke tenantSlug req maxRevocationLifetime =>
    match handleRevoke s.store tenantSlug req s.now maxRevocationLifetime with
    | .ok store => some { s with store }
    | .error _ => some s
  | .deliver isSnapshot delay =>
    let now := s.now + delay
    some { s with
             now
             registry := apply (unix now) isSnapshot s.registry (s.store.snapshot (unix s.now))
             delivered := true }

/-- A further revocation takes the place of the one with this key. -/
def Replaces (key : GoStr) (s : State) : Act → Prop
  | .revoke tenantSlug req maxRevocationLifetime => (req.entry tenantSlug s.now maxRevocationLifetime).key = key
  | _ => False

theorem apply_eq (now : Int) (isSnapshot : Bool) (m : RevocationSnapshot) (es : List Entry) :
    apply now isSnapshot m es = (convertRevocationEntries es).foldl (applyDeltaEntry now)
      (if isSnapshot then RevocationSnapshot.empty else m.dropExpired now) := by
  unfold apply
  split
  · refine applySnapshot_eq fun r hr => ?_
    obtain ⟨e, -, rfl⟩ := List.mem_map.1 hr
    rfl
  · rfl

variable {e : Entry} {registry : RevocationSnapshot} {s : State} {st : Store} {t t' t₀ : Time} {as : List Act}

theorem unix_mono (h : t ≤ t') : unix t ≤ unix t' := Int.ediv_le_ediv (by decide) h
theorem le_add_delay (t : Time) (d : Nat) : t ≤ t + d := Int.le_add_of_nonneg_right (Int.natCast_nonneg d)

theorem unexpired_of_later (h : t ≤ t') (he : unix t' < e.expiresAt) : unix t < e.expiresAt :=
  lt_of_le_of_lt (unix_mono h) he

theorem known_deliver (hst : st.Valid) (he : st.has e = true) (h : t ≤ t') (hex : unix t' < e.expiresAt) (isSnapshot : Bool)
    (m : RevocationSnapshot) : Known (apply (unix t') isSnapshot m (st.snapshot (unix t))) e := by
  rw [apply_eq]
  exact known_apply (fun e' he' => hst.has_of_mem_snapshot he')
    (Store.mem_snapshot_of_has he (unexpired_of_later h hex)) hex

variable {P : Entry → Prop}

structure Inv (P : Entry → Prop) (t₀ : Time) (s : State) : Prop where
  later : t₀ ≤ s.now
  valid : s.store.Valid
  kept : ∀ e, P e → unix s.now < e.expiresAt → s.store.has e = true
  known : s.delivered = true → ∀ e, P e → unix s.now < e.expiresAt → Known s.registry e

theorem Inv.init (hst : st.Valid) (hP : ∀ e, P e → st.has e = true) (t₀ : Time) (registry : RevocationSnapshot) :
    Inv P t₀ ⟨t₀, st, registry, false⟩ where
  later := le_refl _
  valid := hst
  kept e he _ := hP e he
  known hd := by cases hd

theorem Inv.step {s' : State} {a : Act} (h : Inv P t₀ s) (hn : ∀ e, P e → ¬Replaces e.key s a) (hs : step s a = some s') :
    Inv P t₀ s' := by
  cases a with
  | tick d =>
    cases hs
    have hle := le_add_delay s.now d
    exact { later := le_trans h.later hle, valid := h.valid
            kept := fun e he hex => h.kept e he (unexpired_of_later hle hex)
            known := fun hd e he hex => h.known hd e he (unexpired_of_later hle hex) }
  | prune =>
    cases hs
    exact { h with
              valid := h.valid.prune _
              kept := fun e he hex => Store.has_prune.2 ⟨h.kept e he hex, hex⟩ }
  | revoke tenantSlug req maxRevocationLifetime =>
    simp only [Lifetime.step] at hs
    split at hs
    · rename_i store hok
      cases hs
      have hrevoke := handleRevoke_ok hok
      exact { h with
                valid := h.valid.revoke hrevoke
                kept := fun e he hex =>
                  (Store.has_revoke hrevoke).2 (.inr ⟨h.kept e he hex, fun hk => hn e he hk.symm⟩) }
    · cases hs
      exact h
  | deliver isSnapshot delay =>
    cases hs
    have hle := le_add_delay s.now delay
    have hk : ∀ e, P e → unix (s.now + delay) < e.expiresAt → s.store.has e = true :=
      fun e he hex => h.kept e he (unexpired_of_later hle hex)
    exact { later := le_trans h.later hle, valid := h.valid, kept := hk
            known := fun _ e he hex => known_deliver h.valid (hk e he hex) hle hex isSnapshot s.registry }

theorem inv_run (hst : st.Valid) (hP : ∀ e, P e → st.has e = true) (hr : run step ⟨t₀, st, registry, false⟩ as = some s)
    (hn : Along step (fun s a => ∀ e, P e → ¬Replaces e.key s a) ⟨t₀, st, registry, false⟩ as) : Inv P t₀ s :=
  run_invariant_along (Inv P t₀) (fun _ _ _ hi hn hs => hi.step hn hs) (Inv.init hst hP t₀ registry) hn hr

/-- `ValidateJWT` with the options of the gateway accepts the token at that time, as these claims. -/
def Accepts (lib : JWTLib) (validator : Time → Validator) (tok : GoStr) (c : Claims) (t : Time) : Prop :=
  (validator t).validateToken lib t tok = .ok c

/-- The revocation is in the store and covers the token. -/
def Stored (st : Store) (c : Claims) (iat : Int) (e : Entry) : Prop :=
  st.has e = true ∧ Covers e c.id c.subject c.tenantID iat

/-- From a revocation on, whatever is pruned, revoked and sent, the token is revoked whenever it is accepted, once the
revocation was delivered and unless a later one replaces a stored one that covers the token. -/
def Outlives (accepts : Time → Prop) (c : Claims) (iat : Int) (st : Store) (registry : RevocationSnapshot) (t₀ : Time) :
    Prop :=
  ∀ as s, run step ⟨t₀, st, registry, false⟩ as = some s →
    Along step (fun s a => ∀ e, Stored st c iat e → ¬Replaces e.key s a) ⟨t₀, st, registry, false⟩ as →
      s.delivered = true → accepts s.now → isRevoked s.registry c.id c.subject c.tenantID iat = true

theorem exists_of_outlives {accepts : Time → Prop} {c : Claims} (hst : st.Valid)
    (h : Outlives accepts c iat st registry t₀) (ht : t₀ ≤ t) (ha : accepts t) :
    ∃ e, Stored st c iat e ∧ unix t < e.expiresAt := by
  have hn : t₀ + ((t - t₀).toNat : Int) = t := by
    rw [Int.toNat_of_nonneg (Int.sub_nonneg.2 ht), Int.add_comm]
    exact Int.sub_add_cancel t t₀
  have hr := h [.tick (t - t₀).toNat, .deliver true 0] _ rfl ⟨fun _ _ h => h, fun _ _ h => h, trivial⟩ rfl
  dsimp only at hr
  rw [hn, apply_eq] at hr
  obtain ⟨e, he, hc, hex⟩ := covers_of_isRevoked (hr (by simpa using ha))
  exact ⟨e, ⟨hst.has_of_mem_snapshot he, hc⟩, by simpa using hex⟩

/-- **A revocation outlives the token exactly if the token dies first**, or another revocation covers it then. -/
theorem revocation_outlives_iff (lib : JWTLib) (validator : Time → Validator) (tok : GoStr) (c : Claims) (iat : Int)
    (st st' : Store) (registry : RevocationSnapshot) (t₀ maxRevocationLifetime : Time) (tenantSlug : GoStr)
    (req : RevocationRequest) (hst : st.Valid) (hexp : req.exp = none)
    (hrev : handleRevoke st tenantSlug req t₀ maxRevocationLifetime = .ok st')
    (hcov : Covers (req.entry tenantSlug t₀ maxRevocationLifetime) c.id c.subject c.tenantID iat) :
    Outlives (Accepts lib validator tok c) c iat st' registry t₀ ↔
      ∀ t, t₀ ≤ t → Accepts lib validator tok c t →
        unix t < unix (t₀ + maxRevocationLifetime) ∨
          ∃ e, st.has e = true ∧ e.key ≠ (req.entry tenantSlug t₀ maxRevocationLifetime).key ∧
            Covers e c.id c.subject c.tenantID iat ∧ unix t < e.expiresAt := by
  have hrevoke := handleRevoke_ok hrev
  have hst' : st'.Valid := hst.revoke hrevoke
  have hlifetime : (req.entry tenantSlug t₀ maxRevocationLifetime).expiresAt = unix (t₀ + maxRevocationLifetime) := by
    simp only [RevocationRequest.entry, hexp]
  constructor
  · intro h t ht hacc
    obtain ⟨e, ⟨he, hc⟩, hlt⟩ := exists_of_outlives hst' h ht hacc
    rcases (Store.has_revoke hrevoke).1 he with rfl | ⟨hold, hkey⟩
    · exact .inl (hlifetime ▸ hlt)
    · exact .inr ⟨e, hold, hkey, hc, hlt⟩
  · intro h as s hrun hkept hd hacc
    have hinv := inv_run hst' (fun _ he => he.1) hrun hkept
    rcases h s.now hinv.later hacc with hlt | ⟨e, hold, hkey, hc, hlt⟩
    · exact isRevoked_of_known (hinv.known hd _ ⟨(Store.has_revoke hrevoke).2 (.inl rfl), hcov⟩ (hlifetime ▸ hlt)) hcov
    · exact isRevoked_of_known (hinv.known hd e ⟨(Store.has_revoke hrevoke).2 (.inr ⟨hold, hkey⟩), hc⟩ hlt) hc

def hour : Time := 3600 * 1000000000
def day : Time := 24 * hour

def dayClaims (exp : Option Int) : Claims :=
  ⟨str "t-1", str "user", [], some 0, exp, str "acme", [], [], [], [], str "uuid-1"⟩

def clockLib (exp : Option Int) : JWTLib where
  parse := fun _ => some ⟨some (str "key-1"), some (str "ES256"), { dayClaims exp with resolvedTenantUUID := [] }⟩
  verify := fun _ _ => true
  check := fun now c => if c.expiresAt.any (· ≤ unix now) then some .expired else none

def acmeValidator : Validator where
  getKey := fun _ => .ok ⟨str "key-1", str "uuid-1", str "ES256", [], true, none, none⟩
  requireTenantID := true
  allowedAlgorithms := []
  allowedIssuers := []
  tenantResolver := fun slug => if slug = str "acme" then some (str "uuid-1") else none

theorem revocation_outlives_iff_hourToken :
    ∃ st', handleRevoke ∅ (str "acme") ⟨[], str "t-1", none⟩ 0 day = .ok st' ∧
      Outlives (Accepts (clockLib (some 3600)) (fun _ => acmeValidator) (str "tok") (dayClaims (some 3600)))
        (dayClaims (some 3600)) 0 st' RevocationSnapshot.empty 0 := by
  refine ⟨_, rfl, (revocation_outlives_iff _ _ _ _ _ ∅ _ _ 0 day (str "acme") ⟨[], str "t-1", none⟩
    Store.valid_empty rfl rfl ⟨by decide, rfl, rfl⟩).2 fun t _ hacc => .inl ?_⟩
  have hday : unix (0 + day) = 86400 := by decide
  rw [hday]
  by_contra hlate
  have hexpired : (clockLib (some 3600)).check t { dayClaims (some 3600) with resolvedTenantUUID := [] } =
      some .expired := by
    have hle : (3600 : Int) ≤ unix t := by omega
    simp [clockLib, dayClaims, hle]
  unfold Accepts Validator.validateToken validateJWT parseWithClaims at hacc
  have hparse : (clockLib (some 3600)).parse (str "tok") =
      some ⟨some (str "key-1"), some (str "ES256"), { dayClaims (some 3600) with resolvedTenantUUID := [] }⟩ := rfl
  have hkey : keyFunc acmeValidator.opts
      ⟨some (str "key-1"), some (str "ES256"), { dayClaims (some 3600) with resolvedTenantUUID := [] }⟩ =
        some ⟨str "key-1", str "uuid-1", str "ES256", [], true, none, none⟩ := by decide
  have hissuer : issuerAllowed (clockLib (some 3600)) acmeValidator.opts (str "tok") = true := rfl
  have hverify : (clockLib (some 3600)).verify (str "tok") ⟨str "key-1", str "uuid-1", str "ES256", [], true, none, none⟩ =
      true := rfl
  have hne : str "tok" ≠ [] := by decide
  simp only [hne, hissuer, hparse, hkey, hverify, hexpired, Bool.not_true, Bool.false_eq_true, if_false, reduceCtorEq]
    at hacc

/-- **Bug**: a token without `exp` is accepted again one day after it was revoked, with the next delta. -/
theorem revocation_dies_first :
    ∃ st' s, handleRevoke ∅ (str "acme") ⟨[], str "t-1", none⟩ 0 day = .ok st' ∧
      run step ⟨0, st', RevocationSnapshot.empty, false⟩ [.deliver false 0, .tick (24 * 3600 * 1000000000),
        .revoke (str "globex") ⟨[], str "t-2", none⟩ day, .deliver false 0] = some s ∧
      s.delivered = true ∧ Accepts (clockLib none) (fun _ => acmeValidator) (str "tok") (dayClaims none) s.now ∧
      isRevoked s.registry (str "t-1") (str "user") (str "acme") 0 = false :=
  ⟨_, _, rfl, rfl, rfl, by unfold Accepts; decide +kernel, by decide +kernel⟩

end Lifetime
end Sukko.Gateway
