import Mathlib.Data.List.TakeWhile
import Sukko.Gateway.ConnectionRegistry
/-
# The race between a registration and a user revocation

The stream stores its snapshot and then closes the matching connections (`shared/provapi/revocation_stream.go:300-316`,
`:361-378`); a connection registers and then checks the snapshot again (`gateway/gateway.go:464-470`).
-/

namespace Sukko.Gateway.RevocationRace
open Replica Revocation Steps List Function

inductive Phase where
  | start
  | authenticated (res : AuthResult)
  | registered (res : AuthResult)
  | done (res : AuthResult)
  | refused

structure State where
  snapshot : RevocationSnapshot
  gw : Conns
  phase : Phase
  pending : List RevocationEntry
  closing : Option (RevocationEntry × Finset ConnID)
  delivered : List TokenRevocation

def init : State := ⟨RevocationSnapshot.empty, Conns.init, .start, [], none, []⟩

def connOf : ConnAct → Option ConnID
  | .connect id .. => some id
  | .recheck id _ => some id
  | .refresh id .. => some id
  | .disconnect id => some id
  | .revoke _ => none

inductive Act where
  | authenticate (env : Env) (now : Time) (anon token apiKey : GoStr)
  | register (transport : Transport) (maxPublishSize maxFrameSize : Int)
  | recheck
  | store (isSnapshot : Bool) (now : Int) (revs : List TokenRevocation)
  | lookup
  | close (id : ConnID)
  | return_
  | other (a : ConnAct)

def found (g : Conns) (entry : RevocationEntry) : Finset ConnID :=
  match entry.type with
  | .token => (g.registry.findByJTI entry.jti).elim ∅ ({·})
  | .user => g.registry.findBySub entry.tenantID entry.sub
  | .other _ => ∅

def closeBy (entry : RevocationEntry) (c : Connection) : Connection :=
  match entry.type with
  | .token => c.forceClose .tokenRevoked
  | .user => if entry.revokedAt ≤ c.iat then c else c.forceClose .userRevoked
  | .other _ => c

def step (me : ConnID) (s : State) : Act → Option State
  | .authenticate env now anon token apiKey =>
    match s.phase with
    | .start =>
      match authenticateRequest { env with revocations := some s.snapshot } now anon token apiKey with
      | .error _ => some { s with phase := .refused }
      | .ok res => some { s with phase := .authenticated res }
    | _ => none
  | .register transport maxPublishSize maxFrameSize =>
    match s.phase with
    | .authenticated res =>
      some { s with gw := s.gw.connect me transport res maxPublishSize maxFrameSize, phase := .registered res }
    | _ => none
  | .recheck =>
    match s.phase with
    | .registered res =>
      some { s with
        gw := s.gw.modify me (Conns.recheckRevocationAfterRegister s.snapshot res.tenantSlug), phase := .done res }
    | _ => none
  | .store isSnapshot now revs =>
    if s.pending = [] ∧ s.closing = none then
      some { s with
        snapshot := if isSnapshot then applySnapshot now revs else applyDelta now s.snapshot revs
        pending := if isSnapshot then snapshotCallbacks now revs else deltaCallbacks now revs
        delivered := s.delivered ++ revs }
    else none
  | .lookup =>
    match s.pending, s.closing with
    | entry :: rest, none => some { s with pending := rest, closing := some (entry, found s.gw entry) }
    | _, _ => none
  | .close id =>
    match s.closing with
    | some (entry, ids) =>
      if id ∈ ids then some { s with gw := s.gw.modify id (closeBy entry), closing := some (entry, ids.erase id) }
      else none
    | none => none
  | .return_ =>
    match s.closing with
    | some (_, ids) => if ids = ∅ then some { s with closing := none } else none
    | none => none
  | .other a =>
    if (connOf a).all (· ≠ me) ∧ (connOf a).isSome then (Conns.step s.gw a).map fun g => { s with gw := g } else none

/-! ## What is assumed of the revocation -/

def concerns (r q : TokenRevocation) : Bool :=
  q.type = .user && subKey q.tenantSlug q.sub == subKey r.tenantSlug r.sub

def upholds (r : TokenRevocation) (iat : Int) (q : TokenRevocation) : Bool :=
  !q.removed && decide (iat < q.revokedAt) && decide (r.expiresAt ≤ q.expiresAt)

def kept (r : TokenRevocation) (iat : Int) (s : State) : Act → Bool
  | .store isSnapshot now revs =>
    if r ∈ s.delivered then
      decide (now < r.expiresAt) && revs.all (fun q => !concerns r q || upholds r iat q) &&
        (!isSnapshot || revs.any (concerns r))
    else if r ∈ revs then
      decide (now < r.expiresAt) && (revs.dropWhile (· ≠ r)).all (fun q => !concerns r q || upholds r iat q)
    else true
  | _ => true

/-- The accepted request carries a token that `r` revokes. -/
def Carries (res : AuthResult) (r : TokenRevocation) (iat : Int) : Prop :=
  ∃ c, res.claims = some c ∧ res.tenantSlug = r.tenantSlug ∧ c.subject = r.sub ∧ c.issuedAt.getD 0 = iat

/-! ## The snapshot -/

def Held (r : TokenRevocation) (iat : Int) (m : RevocationSnapshot) : Prop :=
  ∃ e, m.subRevocations (subKey r.tenantSlug r.sub) = some e ∧ iat < e.revokedAt ∧ r.expiresAt ≤ e.expiresAt

section Snapshot
variable {r q : TokenRevocation} {iat now : Int} {m : RevocationSnapshot}

theorem Held.isRevoked (h : Held r iat m) (hs : r.sub ≠ []) (jti : GoStr) :
    isRevoked m jti r.sub r.tenantSlug iat = true := by
  obtain ⟨e, he, hlt, -⟩ := h
  simp [Gateway.isRevoked, hs, he, hlt]

theorem Held.dropExpired (h : Held r iat m) (hn : now < r.expiresAt) : Held r iat (m.dropExpired now) := by
  obtain ⟨e, he, hlt, hex⟩ := h
  refine ⟨e, ?_, hlt, hex⟩
  simp [RevocationSnapshot.dropExpired, he, lt_of_lt_of_le hn hex]

theorem concerns_iff : concerns r q = true ↔ q.type = .user ∧ subKey q.tenantSlug q.sub = subKey r.tenantSlug r.sub := by
  simp [concerns]

theorem upholds_iff : upholds r iat q = true ↔ q.removed = false ∧ iat < q.revokedAt ∧ r.expiresAt ≤ q.expiresAt := by
  simp [upholds, and_assoc]

theorem put_of_not_concerns (h : concerns r q = false) :
    (m.put q).subRevocations (subKey r.tenantSlug r.sub) = m.subRevocations (subKey r.tenantSlug r.sub) := by
  unfold RevocationSnapshot.put
  split
  · rfl
  · rename_i hty
    refine Map.set_of_ne _ _ fun heq => ?_
    rw [concerns_iff.2 ⟨hty, heq.symm⟩] at h
    cases h
  · rfl

theorem delete_of_not_concerns (h : concerns r q = false) :
    (m.delete q).subRevocations (subKey r.tenantSlug r.sub) = m.subRevocations (subKey r.tenantSlug r.sub) := by
  unfold RevocationSnapshot.delete
  split
  · rfl
  · rename_i hty
    refine Map.delete_of_ne _ fun heq => ?_
    rw [concerns_iff.2 ⟨hty, heq.symm⟩] at h
    cases h
  · rfl

theorem held_put (hc : concerns r q = true) (hu : upholds r iat q = true) : Held r iat (m.put q) := by
  obtain ⟨hty, hk⟩ := concerns_iff.1 hc
  obtain ⟨-, hlt, he⟩ := upholds_iff.1 hu
  refine ⟨⟨q.revokedAt, q.expiresAt⟩, ?_, hlt, he⟩
  simp only [RevocationSnapshot.put, hty, ← hk, Map.set_self]

structure Writes (r : TokenRevocation) (iat : Int) (f : RevocationSnapshot → TokenRevocation → RevocationSnapshot) : Prop where
  frame : ∀ m q, concerns r q = false →
    (f m q).subRevocations (subKey r.tenantSlug r.sub) = m.subRevocations (subKey r.tenantSlug r.sub)
  put : ∀ m q, concerns r q = true → upholds r iat q = true → Held r iat (f m q)

theorem writes_applyDeltaEntry (hn : now < r.expiresAt) : Writes r iat (applyDeltaEntry now) where
  frame m q h := by
    unfold applyDeltaEntry
    split
    · exact delete_of_not_concerns h
    · split
      · exact put_of_not_concerns h
      · rfl
  put m q hc hu := by
    obtain ⟨hr, -, he⟩ := upholds_iff.1 hu
    simp only [applyDeltaEntry, hr, lt_of_lt_of_le hn he, if_true]
    exact held_put hc hu

theorem writes_snapshotEntry (hn : now < r.expiresAt) :
    Writes r iat (fun m q => if q.expiresAt ≤ now then m else m.put q) where
  frame m q h := by
    split
    · rfl
    · exact put_of_not_concerns h
  put m q hc hu := by
    obtain ⟨-, -, he⟩ := upholds_iff.1 hu
    simp only [not_le.2 (lt_of_lt_of_le hn he), if_false]
    exact held_put hc hu

section Loop
variable {f : RevocationSnapshot → TokenRevocation → RevocationSnapshot} (hf : Writes r iat f) {revs : List TokenRevocation}
include hf

theorem Writes.keeps (ha : ∀ q ∈ revs, concerns r q = true → upholds r iat q = true) (h : Held r iat m) :
    Held r iat (revs.foldl f m) := by
  induction revs generalizing m with
  | nil => exact h
  | cons q revs ih =>
    refine ih (fun q' hq' => ha q' (mem_cons_of_mem q hq')) ?_
    cases hc : concerns r q with
    | true => exact hf.put m q hc (ha q mem_cons_self hc)
    | false =>
      obtain ⟨e, he, hr⟩ := h
      exact ⟨e, (hf.frame m q hc).trans he, hr⟩

theorem Writes.establishes (ha : ∀ q ∈ revs, concerns r q = true → upholds r iat q = true) (hq : q ∈ revs)
    (hc : concerns r q = true) : Held r iat (revs.foldl f m) := by
  obtain ⟨before, after, rfl⟩ := append_of_mem hq
  rw [foldl_append, foldl_cons]
  refine hf.keeps (fun q' hq' => ha q' ?_) (hf.put _ q hc (ha q hq hc))
  exact mem_append_right _ (mem_cons_of_mem q hq')

theorem Writes.delivers (hr : r ∈ revs) (hsl : concerns r r = true)
    (ha : ∀ q ∈ revs.dropWhile (· ≠ r), concerns r q = true → upholds r iat q = true) : Held r iat (revs.foldl f m) := by
  have hs : revs.takeWhile (· ≠ r) ++ revs.dropWhile (· ≠ r) = revs := takeWhile_append_dropWhile
  have hm : r ∈ revs.dropWhile (· ≠ r) := by
    rw [← hs, mem_append] at hr
    rcases hr with h | h
    · simpa using mem_takeWhile_imp h
    · exact h
  rw [← hs, foldl_append]
  exact hf.establishes ha hm hsl

end Loop

/-- **The snapshot from the delivery on**: whatever message comes next, the revocation is held after it. -/
theorem held_store {s : State} {isSnapshot : Bool} {revs : List TokenRevocation} (hs : concerns r r = true)
    (hk : kept r iat s (.store isSnapshot now revs) = true) (h : r ∈ s.delivered → Held r iat s.snapshot)
    (hdl : r ∈ s.delivered ++ revs) :
    Held r iat (if isSnapshot then applySnapshot now revs else applyDelta now s.snapshot revs) := by
  simp only [kept] at hk
  by_cases hd : r ∈ s.delivered
  · simp only [hd, if_true, Bool.and_eq_true, decide_eq_true_eq, all_eq_true, Bool.or_eq_true, Bool.not_eq_true',
      any_eq_true] at hk
    obtain ⟨⟨hn, hal⟩, hsn⟩ := hk
    have ha : ∀ q ∈ revs, concerns r q = true → upholds r iat q = true := fun q hq hc =>
      (hal q hq).resolve_left (by simp [hc])
    cases isSnapshot with
    | true =>
      obtain ⟨q, hq, hc⟩ := hsn.resolve_left (by simp)
      exact (writes_snapshotEntry hn).establishes ha hq hc
    | false => exact (writes_applyDeltaEntry hn).keeps ha ((h hd).dropExpired hn)
  · have hr : r ∈ revs := (mem_append.1 hdl).resolve_left hd
    simp only [hd, hr, if_true, if_false, Bool.and_eq_true, decide_eq_true_eq, all_eq_true, Bool.or_eq_true,
      Bool.not_eq_true'] at hk
    obtain ⟨hn, hal⟩ := hk
    have ha : ∀ q ∈ revs.dropWhile (· ≠ r), concerns r q = true → upholds r iat q = true := fun q hq hc =>
      (hal q hq).resolve_left (by simp [hc])
    cases isSnapshot with
    | true => exact (writes_snapshotEntry hn).delivers hr hs ha
    | false => exact (writes_applyDeltaEntry hn).delivers hr hs ha

end Snapshot

/-! ## The registry -/

section Registry
variable {reg : ConnectionRegistry} {id me : ConnID} {tenantID sub jti tenant' sub' : GoStr}

theorem mem_findBySub_register_self (hs : sub ≠ []) : id ∈ (reg.register id tenantID sub jti).findBySub tenantID sub := by
  simp [ConnectionRegistry.findBySub, ConnectionRegistry.register, hs]

theorem mem_findBySub_register (h : me ∈ reg.findBySub tenant' sub') :
    me ∈ (reg.register id tenantID sub jti).findBySub tenant' sub' := by
  simp only [ConnectionRegistry.findBySub, ConnectionRegistry.register] at h ⊢
  split
  · by_cases hk : subKey tenant' sub' = subKey tenantID sub
    · rw [hk] at h ⊢; simp [h]
    · rw [update_of_ne hk]; exact h
  · exact h

theorem mem_findBySub_unregister (hne : me ≠ id) (h : me ∈ reg.findBySub tenant' sub') :
    me ∈ (reg.unregister id tenantID sub jti).findBySub tenant' sub' := by
  simp only [ConnectionRegistry.findBySub, ConnectionRegistry.unregister] at h ⊢
  split
  · by_cases hk : subKey tenant' sub' = subKey tenantID sub
    · rw [hk] at h ⊢; simp [h, hne]
    · rw [update_of_ne hk]; exact h
  · exact h

end Registry

theorem other_frame {g g' : Conns} {a : ConnAct} {me id : ConnID} (ha : connOf a = some id) (hne : id ≠ me)
    (hs : Conns.step g a = some g') :
    g'.conns me = g.conns me ∧ ∀ t s, me ∈ g.registry.findBySub t s → me ∈ g'.registry.findBySub t s := by
  cases a with
  | connect id' transport env now anon token apiKey maxPublishSize maxFrameSize =>
    cases ha
    simp only [Conns.step] at hs
    split at hs
    · cases hs
    split at hs
    · cases hs; exact ⟨rfl, fun _ _ h => h⟩
    · cases hs
      refine ⟨Map.set_of_ne _ _ hne.symm, fun t s h => ?_⟩
      simp only [Conns.connect]
      split
      · exact mem_findBySub_register h
      · exact h
  | recheck id' snap =>
    cases ha
    simp only [Conns.step] at hs
    split at hs
    · cases hs
    cases hs; exact ⟨Conns.conns_modify_of_ne hne.symm, fun _ _ h => h⟩
  | refresh id' env now allow token =>
    cases ha
    simp only [Conns.step] at hs
    split at hs
    · cases hs
    split at hs
    · cases hs
    split at hs
    · cases hs; exact ⟨rfl, fun _ _ h => h⟩
    · cases hs; exact ⟨Conns.conns_modify_of_ne hne.symm, fun _ _ h => h⟩
  | revoke entry => cases ha
  | disconnect id' =>
    cases ha
    simp only [Conns.step] at hs
    split at hs
    · cases hs
    cases hs
    refine ⟨Map.delete_of_ne _ hne.symm, fun t s h => ?_⟩
    simp only [Conns.disconnect]
    split
    · exact mem_findBySub_unregister hne.symm h
    · exact h

/-! ## The handshake -/

def Hits (r : TokenRevocation) (iat : Int) (e : RevocationEntry) : Prop :=
  e.type = .user ∧ e.tenantID = r.tenantSlug ∧ e.sub = r.sub ∧ iat < e.revokedAt

def Present (r : TokenRevocation) (iat : Int) (me : ConnID) (g : Conns) : Prop :=
  (∃ c, g.conns me = some c ∧ c.sub = r.sub ∧ c.iat = iat) ∧ me ∈ g.registry.findBySub r.tenantSlug r.sub

def Closed (me : ConnID) (g : Conns) : Prop := ∃ c, g.conns me = some c ∧ c.closed.isSome = true

inductive Caught (r : TokenRevocation) (iat : Int) (me : ConnID) (s : State) : Prop
  | closed (h : Closed me s.gw)
  | pending (e : RevocationEntry) (he : e ∈ s.pending) (h : Hits r iat e)
  | closing (e : RevocationEntry) (ids : Finset ConnID) (hs : s.closing = some (e, ids)) (h : Hits r iat e) (hme : me ∈ ids)

structure Inv (r : TokenRevocation) (iat : Int) (me : ConnID) (s : State) : Prop where
  held : r ∈ s.delivered → Held r iat s.snapshot
  jwt : ∀ res, s.phase = .authenticated res → res.claims.isSome = true → res.apiKeyOnly = false
  present : ∀ res, s.phase = .registered res ∨ s.phase = .done res → Carries res r iat → Present r iat me s.gw
  -- the connection's last look at the snapshot came before the delivery or closed it
  caught : ∀ res, s.phase = .done res → Carries res r iat → r ∈ s.delivered → Caught r iat me s

section Close
variable {r : TokenRevocation} {iat : Int} {me id : ConnID} {g : Conns} {e : RevocationEntry}

theorem closeBy_proxy (e : RevocationEntry) (c : Connection) : (closeBy e c).proxy = c.proxy := by
  unfold closeBy
  split
  · rfl
  · split <;> rfl
  · rfl

theorem recheck_proxy (snap : RevocationSnapshot) (tenantID : GoStr) (c : Connection) :
    (Conns.recheckRevocationAfterRegister snap tenantID c).proxy = c.proxy := by
  unfold Conns.recheckRevocationAfterRegister
  split <;> rfl

theorem closed_forceClose (c : Connection) (reason : CloseReason) : (c.forceClose reason).closed.isSome = true := by
  cases hcl : c.closed <;> simp [Connection.forceClose, hcl]

theorem closeBy_closed (e : RevocationEntry) {c : Connection} (h : c.closed.isSome = true) :
    (closeBy e c).closed.isSome = true := by
  unfold closeBy
  split
  · exact closed_forceClose c _
  · split
    · exact h
    · exact closed_forceClose c _
  · exact h

theorem Present.modify (h : Present r iat me g) {f : Connection → Connection} (hf : ∀ c, (f c).proxy = c.proxy) :
    Present r iat me (g.modify id f) := by
  obtain ⟨⟨c, hc, hs, hi⟩, hm⟩ := h
  refine ⟨?_, hm⟩
  by_cases hid : me = id
  · subst hid
    refine ⟨f c, by rw [Conns.conns_modify_self, hc]; rfl, ?_, ?_⟩
    · simp only [Connection.sub, hf]; exact hs
    · simp only [Connection.iat, hf]; exact hi
  · exact ⟨c, by rw [Conns.conns_modify_of_ne hid]; exact hc, hs, hi⟩

theorem Closed.closeBy (h : Closed me g) : Closed me (g.modify id (closeBy e)) := by
  obtain ⟨c, hc, hcl⟩ := h
  by_cases hid : me = id
  · subst hid
    exact ⟨_, by rw [Conns.conns_modify_self, hc]; rfl, closeBy_closed e hcl⟩
  · exact ⟨c, by rw [Conns.conns_modify_of_ne hid]; exact hc, hcl⟩

theorem closed_of_hits (hp : Present r iat me g) (he : Hits r iat e) : Closed me (g.modify me (closeBy e)) := by
  obtain ⟨⟨c, hc, -, hi⟩, -⟩ := hp
  obtain ⟨hty, -, -, hlt⟩ := he
  refine ⟨_, by rw [Conns.conns_modify_self, hc]; rfl, ?_⟩
  simp only [RevocationRace.closeBy, hty, hi, not_le.2 hlt, if_false]
  exact closed_forceClose c _

theorem closed_of_recheck {snap : RevocationSnapshot} (hp : Present r iat me g) (hs : r.sub ≠ []) (h : Held r iat snap) :
    Closed me (g.modify me (Conns.recheckRevocationAfterRegister snap r.tenantSlug)) := by
  obtain ⟨⟨c, hc, hcs, hi⟩, -⟩ := hp
  refine ⟨_, by rw [Conns.conns_modify_self, hc]; rfl, ?_⟩
  simp only [Conns.recheckRevocationAfterRegister, hcs, hi, h.isRevoked hs, if_true]
  exact closed_forceClose c _

end Close

variable {res : AuthResult}

theorem present_connect {r : TokenRevocation} {iat : Int} {me : ConnID} {g : Conns} {transport : Transport}
    (maxPublishSize maxFrameSize : Int) (hsb : r.sub ≠ []) (hk : res.apiKeyOnly = false) (hc : Carries res r iat) :
    Present r iat me (g.connect me transport res maxPublishSize maxFrameSize) := by
  obtain ⟨c, hcl, ht, hs, hi⟩ := hc
  have hr : Conns.registration res = some (c.subject, c.id) := by simp [Conns.registration, hk, hcl]
  refine ⟨⟨_, Map.set_self .., ?_, ?_⟩, ?_⟩
  · simp [Connection.sub, openProxy, hcl, hs]
  · simp [Connection.iat, openProxy, hcl, hi]
  · simp only [Conns.connect, hr, ht, hs]
    exact mem_findBySub_register_self hsb

section Race
variable {r : TokenRevocation} {iat : Int} {me : ConnID} {s s' : State}

theorem inv_init : Inv r iat me init where
  held h := by cases h
  jwt _ h := by cases h
  present _ h := by rcases h with h | h <;> cases h
  caught _ h := by cases h

theorem Inv.frame (hi : Inv r iat me s) {g : Conns} (hp : Present r iat me s.gw → Present r iat me g)
    (hc : Closed me s.gw → Closed me g) : Inv r iat me { s with gw := g } where
  held := hi.held
  jwt := hi.jwt
  present res hph hcr := hp (hi.present res hph hcr)
  caught res hph hcr hd := by
    cases hi.caught res hph hcr hd with
    | closed h => exact .closed (hc h)
    | pending e he h => exact .pending e he h
    | closing e ids hs h hme => exact .closing e ids hs h hme

theorem Inv.store (hi : Inv r iat me s) (hty : r.type = .user) (ha : r.removed = false) (hlt : iat < r.revokedAt)
    {isSnapshot : Bool} {now : Int} {revs : List TokenRevocation} (hk : kept r iat s (.store isSnapshot now revs) = true)
    (hid : s.pending = [] ∧ s.closing = none) :
    Inv r iat me { s with
      snapshot := if isSnapshot then applySnapshot now revs else applyDelta now s.snapshot revs
      pending := if isSnapshot then snapshotCallbacks now revs else deltaCallbacks now revs
      delivered := s.delivered ++ revs } where
  held := held_store (concerns_iff.2 ⟨hty, rfl⟩) hk hi.held
  jwt := hi.jwt
  present := hi.present
  caught res hph hc hdl := by
    by_cases hd : r ∈ s.delivered
    · cases hi.caught res hph hc hd with
      | closed h => exact .closed h
      | pending e he h => rw [hid.1] at he; cases he
      | closing e ids hs h hme => rw [hid.2] at hs; cases hs
    · have hr : r ∈ revs := (mem_append.1 hdl).resolve_left hd
      have hn : now < r.expiresAt := by
        simp only [kept, hd, hr, if_true, if_false, Bool.and_eq_true, decide_eq_true_eq] at hk
        exact hk.1
      refine .pending (protoToRevocationEntry r) ?_ ⟨hty, rfl, rfl, hlt⟩
      cases isSnapshot with
      | true => exact mem_map_of_mem (mem_filter.2 ⟨hr, by simpa using hn⟩)
      | false => exact mem_map_of_mem (mem_filter.2 ⟨hr, by simpa [ha] using hn⟩)

variable {entry : RevocationEntry}

variable (hi : Inv r iat me s)
include hi

theorem Inv.lookup {rest : List RevocationEntry} (hp : s.pending = entry :: rest)
    (hn : s.closing = none) : Inv r iat me { s with pending := rest, closing := some (entry, found s.gw entry) } where
  held := hi.held
  jwt := hi.jwt
  present := hi.present
  caught res hph hc hd := by
    cases hi.caught res hph hc hd with
    | closed h => exact .closed h
    | pending e he h =>
      rw [hp] at he
      rcases mem_cons.1 he with heq | he
      · subst heq
        refine .closing e _ rfl h ?_
        obtain ⟨hey, het, hes, -⟩ := h
        simp only [found, hey, het, hes]
        exact (hi.present res (.inr hph) hc).2
      · exact .pending e he h
    | closing e ids hs h hme => rw [hn] at hs; cases hs

theorem Inv.close {ids : Finset ConnID} (hcl : s.closing = some (entry, ids)) (id : ConnID) :
    Inv r iat me { s with gw := s.gw.modify id (closeBy entry), closing := some (entry, ids.erase id) } where
  held := hi.held
  jwt := hi.jwt
  present res hph hc := (hi.present res hph hc).modify (closeBy_proxy entry)
  caught res hph hc hd := by
    cases hi.caught res hph hc hd with
    | closed h => exact .closed h.closeBy
    | pending e he h => exact .pending e he h
    | closing e ids' hs h hme =>
      rw [hcl] at hs
      cases hs
      by_cases hid : me = id
      · subst hid
        exact .closed (closed_of_hits (hi.present res (.inr hph) hc) h)
      · exact .closing entry _ rfl h (Finset.mem_erase.2 ⟨hid, hme⟩)

theorem Inv.recheck (hs : r.sub ≠ []) (hph : s.phase = .registered res) : Inv r iat me { s with
      gw := s.gw.modify me (Conns.recheckRevocationAfterRegister s.snapshot res.tenantSlug), phase := .done res } where
  held := hi.held
  jwt _ h := by cases h
  present res' hp hc := by
    rcases hp with h | h <;> cases h
    exact (hi.present res (.inl hph) hc).modify (recheck_proxy _ _)
  caught res' hp hc hd := by
    cases hp
    have ht : res.tenantSlug = r.tenantSlug := by
      obtain ⟨-, -, ht, -⟩ := hc
      exact ht
    rw [ht]
    exact .closed (closed_of_recheck (hi.present res (.inl hph) hc) hs (hi.held hd))

theorem Inv.refused : Inv r iat me { s with phase := .refused } where
  held := hi.held
  jwt _ h := by cases h
  present _ h := by rcases h with h | h <;> cases h
  caught _ h := by cases h

theorem Inv.authenticated (hj : res.claims.isSome = true → res.apiKeyOnly = false) :
    Inv r iat me { s with phase := .authenticated res } where
  held := hi.held
  jwt _ h := by cases h; exact hj
  present _ h := by rcases h with h | h <;> cases h
  caught _ h := by cases h

theorem Inv.register (hsb : r.sub ≠ []) (hph : s.phase = .authenticated res) (transport : Transport)
    (maxPublishSize maxFrameSize : Int) :
    Inv r iat me { s with gw := s.gw.connect me transport res maxPublishSize maxFrameSize, phase := .registered res } where
  held := hi.held
  jwt _ h := by cases h
  present _ h hcr := by
    rcases h with h | h <;> cases h
    have hs : res.claims.isSome = true := by
      obtain ⟨c, hc, -⟩ := hcr
      rw [hc]
      rfl
    exact present_connect maxPublishSize maxFrameSize hsb (hi.jwt res hph hs) hcr
  caught _ h := by cases h

theorem Inv.return_ (hcl : s.closing = some (entry, ∅)) : Inv r iat me { s with closing := none } where
  held := hi.held
  jwt := hi.jwt
  present := hi.present
  caught res hph hc hd := by
    cases hi.caught res hph hc hd with
    | closed h => exact .closed h
    | pending e he h => exact .pending e he h
    | closing e ids hs h hme =>
      rw [hcl] at hs
      cases hs
      cases hme

theorem Inv.step (hty : r.type = .user) (ha : r.removed = false) (hsb : r.sub ≠ [])
    (hlt : iat < r.revokedAt) {a : Act} (hk : kept r iat s a = true) (hs : step me s a = some s') : Inv r iat me s' := by
  cases a with simp only [RevocationRace.step] at hs
  | authenticate env now anon token apiKey =>
    split at hs
    · split at hs
      · cases hs
        exact hi.refused
      · rename_i res hr
        cases hs
        refine hi.authenticated fun hc => ?_
        obtain ⟨c, hc⟩ := Option.isSome_iff_exists.1 hc
        exact (authenticateRequest_claims hr hc).2.2
    · cases hs
  | register transport maxPublishSize maxFrameSize =>
    split at hs
    · cases hs
      exact hi.register hsb ‹_› transport maxPublishSize maxFrameSize
    · cases hs
  | recheck =>
    split at hs
    · cases hs; exact hi.recheck hsb ‹_›
    · cases hs
  | store isSnapshot now revs =>
    split at hs
    · cases hs; exact hi.store hty ha hlt hk ‹_›
    · cases hs
  | lookup =>
    split at hs
    · cases hs; exact hi.lookup ‹_› ‹_›
    · cases hs
  | close id =>
    split at hs
    · split at hs
      · cases hs; exact hi.close ‹_› id
      · cases hs
    · cases hs
  | return_ =>
    split at hs
    · split at hs
      · rename_i hcl he
        cases hs
        rw [he] at hcl
        exact hi.return_ hcl
      · cases hs
    · cases hs
  | other a =>
    split at hs
    · rename_i ho
      obtain ⟨g, hg, rfl⟩ := Option.map_eq_some_iff.1 hs
      obtain ⟨id, hid⟩ := Option.isSome_iff_exists.1 ho.2
      have hne : id ≠ me := by simpa [hid] using ho.1
      obtain ⟨hcn, hfn⟩ := other_frame hid hne hg
      refine hi.frame (fun hp => ⟨?_, hfn _ _ hp.2⟩) fun hc => ?_
      · rw [hcn]
        exact hp.1
      · obtain ⟨c, hc, hcl⟩ := hc
        exact ⟨c, hcn.trans hc, hcl⟩
    · cases hs

end Race

/-- **The race is closed**: when all are done, the connection was refused or is closed, if the revocation was delivered and
stays. -/
theorem user_revocation_race_closed {me : ConnID} {as : List Act} {s : State} (hrun : run (step me) init as = some s)
    {r : TokenRevocation} {iat : Int} (hty : r.type = .user) (hadd : r.removed = false) (hacc : r.entry.check = .ok ())
    (hlt : iat < r.revokedAt) (hkept : Along (step me) (fun s a => kept r iat s a = true) init as)
    (hdel : r ∈ s.delivered) (hidle : s.pending = [] ∧ s.closing = none)
    (hfin : s.phase = .refused ∨ ∃ res, s.phase = .done res ∧ Carries res r iat) : s.phase = .refused ∨ Closed me s.gw := by
  have hsub : r.sub ≠ [] := fun h => by
    simp only [Entry.check, TokenRevocation.entry, hty, h, if_true] at hacc
    split at hacc <;> cases hacc
  have hinv : Inv r iat me s :=
    run_invariant_along (Inv r iat me) (fun _ _ _ hi hk hs => hi.step hty hadd hsub hlt hk hs) inv_init hkept hrun
  rcases hfin with h | ⟨res, hph, hcar⟩
  · exact .inl h
  · cases hinv.caught res hph hcar hdel with
    | closed h => exact .inr h
    | pending e he h => rw [hidle.1] at he; cases he
    | closing e ids hs h hme => rw [hidle.2] at hs; cases hs

def demoUser : TokenRevocation := ⟨str "acme", .user, str "user", [], 20, 100, false⟩

def raceRun : List Act :=
  [.authenticate (Conns.tenantEnv (str "acme")) 0 [] (str "t-1") [], .store false 21 [demoUser], .lookup, .return_,
    .register .ws 65536 65536, .recheck]

theorem user_revocation_race_closed_raceRun : ∃ s, run (step 0) init raceRun = some s ∧
    Along (step 0) (fun s a => kept demoUser 10 s a = true) init raceRun ∧ demoUser ∈ s.delivered ∧
    (s.phase = .refused ∨ Closed 0 s.gw) := by
  refine ⟨_, rfl, by decide, by decide, ?_⟩
  exact @user_revocation_race_closed 0 raceRun _ rfl demoUser 10 rfl rfl rfl (by decide) (by decide) (by decide) ⟨rfl, rfl⟩
    (.inr ⟨_, rfl, _, rfl, by decide, by decide, by decide⟩)

end Sukko.Gateway.RevocationRace
