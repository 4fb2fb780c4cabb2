import Sukko.Lib.GoString
/-
# Push configuration on its way to the push service

`Server.WatchPushConfig` (`provisioning/grpcserver/server.go:350`) sends the whole configuration in every message and
never fills the lists of removals; `ConfigClient` (`push/configclient.go:373`) puts a delta on top of what it has.
-/

namespace Sukko.PushConfig
open List

/-! ## Maps that are written key by key -/

section Put
variable {α β : Type} [DecidableEq α]

def put (f : α → Option β) (l : List (α × β)) : α → Option β :=
  l.foldl (fun f e => Function.update f e.1 (some e.2)) f

theorem put_eq (f : α → Option β) (l : List (α × β)) (a : α) : put f l a = (put (fun _ => none) l a).or (f a) := by
  induction l generalizing f with
  | nil => rfl
  | cons e l ih =>
    simp only [put, foldl_cons] at ih ⊢
    rw [ih, ih (Function.update _ e.1 _), Option.or_assoc]
    congr 1
    by_cases ha : a = e.1 <;> simp [ha]

theorem put_isSome (l : List (α × β)) (a : α) : (put (fun _ => none) l a).isSome ↔ a ∈ l.map Prod.fst := by
  induction l with
  | nil => simp [put]
  | cons e l ih =>
    rw [put, foldl_cons, ← put, put_eq, Option.isSome_or, Bool.or_eq_true, ih]
    by_cases ha : a = e.1 <;> simp [ha]

/-- Writing `l'` over `l` is writing `l'` exactly when it writes every key again. -/
theorem put_put_iff (l l' : List (α × β)) :
    put (put (fun _ => none) l) l' = put (fun _ => none) l' ↔ ∀ a ∈ l.map Prod.fst, a ∈ l'.map Prod.fst := by
  rw [funext_iff]
  refine forall_congr' fun a => ?_
  rw [put_eq, ← put_isSome, ← put_isSome]
  cases put (fun _ => none) l' a <;> cases put (fun _ => none) l a <;> simp

end Put

/-! ## The messages and the client -/

structure Credential where
  tenantSlug : GoStr
  provider : GoStr
  credentialData : GoStr

structure ChannelConfig where
  tenantSlug : GoStr
  patterns : List GoStr

structure Response where
  isSnapshot : Bool
  pushCredentials : List Credential
  pushChannelConfigs : List ChannelConfig
  removedConfigTenantSlugs : List GoStr
  removedCredentialIds : List GoStr

structure Snapshot where
  patterns : GoStr → Option (List GoStr)
  credentials : GoStr × GoStr → Option GoStr
  pushEnabledTenants : GoStr → Option Unit

def emptySnapshot : Snapshot := ⟨fun _ => none, fun _ => none, fun _ => none⟩

def Response.credentials (resp : Response) : List ((GoStr × GoStr) × GoStr) :=
  resp.pushCredentials.map fun c => ((c.tenantSlug, c.provider), c.credentialData)

def Response.patterns (resp : Response) : List (GoStr × List GoStr) :=
  resp.pushChannelConfigs.map fun c => (c.tenantSlug, c.patterns)

def Response.tenants (resp : Response) : List (GoStr × Unit) :=
  (resp.pushCredentials.map fun c => (c.tenantSlug, ())) ++ resp.pushChannelConfigs.map fun c => (c.tenantSlug, ())

def Snapshot.upsert (snap : Snapshot) (resp : Response) : Snapshot where
  patterns := put snap.patterns resp.patterns
  credentials := put snap.credentials resp.credentials
  pushEnabledTenants := put snap.pushEnabledTenants resp.tenants

/-- See `push/configclient.go:507`. -/
def parseCredentialID (id : GoStr) : GoStr × GoStr :=
  let i := id.idxOf 58
  if i < id.length then (id.take i, id.drop (i + 1)) else ([], [])

def Snapshot.remove (snap : Snapshot) (resp : Response) : Snapshot where
  patterns := fun t => if t ∈ resp.removedConfigTenantSlugs then none else snap.patterns t
  credentials := fun k =>
    if k.1 ∈ resp.removedConfigTenantSlugs ∨ k.1 ≠ [] ∧ k ∈ resp.removedCredentialIds.map parseCredentialID then none
    else snap.credentials k
  pushEnabledTenants := fun t => if t ∈ resp.removedConfigTenantSlugs then none else snap.pushEnabledTenants t

def applySnapshot (resp : Response) : Snapshot := emptySnapshot.upsert resp
def applyDelta (old : Snapshot) (resp : Response) : Snapshot := (old.remove resp).upsert resp

def updatePushConfig (cur : Option Snapshot) (resp : Response) : Snapshot :=
  if resp.isSnapshot then applySnapshot resp else cur.elim (applySnapshot resp) (applyDelta · resp)

/-- What the two repositories hold when `loadPushConfig` reads them, under the slugs of that time. -/
structure Stored where
  credentials : List Credential
  configs : List ChannelConfig

def Stored.message (db : Stored) (isSnapshot : Bool) : Response := ⟨isSnapshot, db.credentials, db.configs, [], []⟩

/-- After each of the deltas the client has what their configuration alone gives. -/
def Follows : Snapshot → List Stored → Prop
  | _, [] => True
  | snap, db :: dbs =>
    let snap' := updatePushConfig (some snap) (db.message false)
    snap' = applySnapshot (db.message true) ∧ Follows snap' dbs

/-- Every credential and every channel configuration is still there, perhaps with other contents. -/
def Keeps (old new : Stored) : Prop :=
  (∀ c ∈ old.credentials, ∃ c' ∈ new.credentials, c'.tenantSlug = c.tenantSlug ∧ c'.provider = c.provider) ∧
    ∀ c ∈ old.configs, ∃ c' ∈ new.configs, c'.tenantSlug = c.tenantSlug

theorem delta_exact_iff (old new : Stored) :
    updatePushConfig (some (applySnapshot (old.message true))) (new.message false) = applySnapshot (new.message true) ↔
      Keeps old new := by
  have hrem : ∀ snap : Snapshot, snap.remove (new.message false) = snap := by
    intro snap
    simp [Snapshot.remove, Stored.message]
  simp only [updatePushConfig, Stored.message, Bool.false_eq_true, if_false, Option.elim, applyDelta]
  simp only [Stored.message] at hrem
  rw [hrem]
  simp only [applySnapshot, Snapshot.upsert, emptySnapshot, Snapshot.mk.injEq, put_put_iff, Response.patterns,
    Response.credentials, Response.tenants]
  simp only [map_append, map_map, mem_append, mem_map, Function.comp_apply, forall_exists_index, and_imp, Prod.mk.injEq,
    forall_apply_eq_imp_iff₂, Keeps]
  constructor
  · rintro ⟨hp, hc, -⟩
    exact ⟨by simpa using hc, hp⟩
  · rintro ⟨hc, hp⟩
    refine ⟨hp, by simpa using hc, ?_⟩
    rintro t (⟨c, hm, rfl⟩ | ⟨c, hm, rfl⟩)
    · obtain ⟨c', hm', he, -⟩ := hc c hm
      exact .inl ⟨c', hm', he⟩
    · exact .inr (hp c hm)

/-- **Push configuration.** A client follows a stream of configurations after every message exactly when none of them drops a
credential or a channel configuration that the one before had. -/
theorem pushConfig_follows_iff (db : Stored) (dbs : List Stored) :
    Follows (updatePushConfig none (db.message true)) dbs ↔ IsChain Keeps (db :: dbs) := by
  rw [show updatePushConfig none (db.message true) = applySnapshot (db.message true) from rfl]
  induction dbs generalizing db with
  | nil => simp [Follows]
  | cons d dbs ih =>
    rw [isChain_cons_cons, ← ih, ← delta_exact_iff, Follows]
    refine and_congr_right fun he => ?_
    rw [he]

/-- **Bug**: a credential that was deleted is still used after the message that does not contain it. -/
theorem deleted_credential_still_used :
    (updatePushConfig (some (updatePushConfig none (Stored.message ⟨[⟨str "acme", str "fcm", str "key"⟩], []⟩ true)))
      (Stored.message ⟨[], []⟩ false)).credentials (str "acme", str "fcm") = some (str "key") := by
  decide

end Sukko.PushConfig
