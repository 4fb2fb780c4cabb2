import Sukko.Gateway.AuthRequest
import Sukko.Lib.Ledger
import Sukko.Provisioning.Revocation
/-
# The gateway's copy of the revocations

The purpose is a ledger keyed by tenant and by what is revoked. The token map is keyed by the `jti` alone: it never holds more
(`Within`), and all of it only while no two tenants revoke the same `jti` (`Refines`).
-/

namespace Sukko.Gateway
open Replica Ledger Revocation List Function

/-! ## The registry -/

structure RevocationEntry where
  tenantID : GoStr
  type : RevocationType
  sub : GoStr
  jti : GoStr
  revokedAt : Int
  expiresAt : Int
  removed : Bool
deriving DecidableEq

def protoToRevocationEntry (r : TokenRevocation) : RevocationEntry :=
  ⟨r.tenantSlug, r.type, r.sub, r.jti, r.revokedAt, r.expiresAt, r.removed⟩

namespace RevocationSnapshot

def empty : RevocationSnapshot := ⟨Map.empty, Map.empty⟩

def put (m : RevocationSnapshot) (r : TokenRevocation) : RevocationSnapshot :=
  match r.type with
  | .token => { m with jtiRevocations := m.jtiRevocations.set r.jti ⟨r.tenantSlug, r.expiresAt⟩ }
  | .user => { m with subRevocations := m.subRevocations.set (subKey r.tenantSlug r.sub) ⟨r.revokedAt, r.expiresAt⟩ }
  | .other _ => m

def delete (m : RevocationSnapshot) (r : TokenRevocation) : RevocationSnapshot :=
  match r.type with
  | .token => { m with jtiRevocations := m.jtiRevocations.delete r.jti }
  | .user => { m with subRevocations := m.subRevocations.delete (subKey r.tenantSlug r.sub) }
  | .other _ => m

def dropExpired (m : RevocationSnapshot) (now : Int) : RevocationSnapshot where
  jtiRevocations := fun k => (m.jtiRevocations k).filter fun e => decide (now < e.expiresAt)
  subRevocations := fun k => (m.subRevocations k).filter fun e => decide (now < e.expiresAt)

end RevocationSnapshot

def applyDeltaEntry (now : Int) (m : RevocationSnapshot) (r : TokenRevocation) : RevocationSnapshot :=
  if r.removed then m.delete r
  else if now < r.expiresAt then m.put r
  else m

def applyDelta (now : Int) (old : RevocationSnapshot) (revs : List TokenRevocation) : RevocationSnapshot :=
  revs.foldl (applyDeltaEntry now) (old.dropExpired now)

def deltaCallbacks (now : Int) (revs : List TokenRevocation) : List RevocationEntry :=
  (revs.filter fun r => !r.removed && decide (now < r.expiresAt)).map protoToRevocationEntry

def applySnapshot (now : Int) (revs : List TokenRevocation) : RevocationSnapshot :=
  revs.foldl (fun m r => if r.expiresAt ≤ now then m else m.put r) RevocationSnapshot.empty

def snapshotCallbacks (now : Int) (revs : List TokenRevocation) : List RevocationEntry :=
  (revs.filter fun r => decide (now < r.expiresAt)).map protoToRevocationEntry

theorem applySnapshot_eq {now : Int} {revs : List TokenRevocation} (h : ∀ r ∈ revs, r.removed = false) :
    applySnapshot now revs = applyDelta now RevocationSnapshot.empty revs := by
  unfold applySnapshot applyDelta
  have he : RevocationSnapshot.empty.dropExpired now = RevocationSnapshot.empty := rfl
  rw [he]
  refine foldl_ext _ _ _ fun m r hr => ?_
  by_cases hex : now < r.expiresAt
  · simp [applyDeltaEntry, h r hr, hex, not_le.2 hex]
  · simp [applyDeltaEntry, h r hr, hex, not_lt.1 hex]

/-! ## What the registry stands for -/

inductive Target where
  | token (jti : GoStr)
  | user (sub : GoStr)
deriving DecidableEq

abbrev RevocationKey := GoStr × Target

structure Term where
  revokedAt : Int
  expiresAt : Int
deriving DecidableEq

def Term.le (t t' : Term) : Prop := t.revokedAt ≤ t'.revokedAt ∧ t.expiresAt ≤ t'.expiresAt

def writeOf (r : TokenRevocation) : Option (Write RevocationKey Term) :=
  match r.type with
  | .token =>
    some (if r.removed then .remove (r.tenantSlug, .token r.jti)
      else .add (r.tenantSlug, .token r.jti) ⟨0, r.expiresAt⟩)
  | .user =>
    some (if r.removed then .remove (r.tenantSlug, .user r.sub)
      else .add (r.tenantSlug, .user r.sub) ⟨r.revokedAt, r.expiresAt⟩)
  | .other _ => none

def ledgerEntry (now : Int) (l : Map RevocationKey Term) (r : TokenRevocation) : Map RevocationKey Term :=
  match writeOf r with
  | some w => w.apply Term.expiresAt now l
  | none => l

def colon : UInt8 := 58

theorem subKey_inj {t u s r : GoStr} (ht : colon ∉ t) (hu : colon ∉ u) (h : subKey t s = subKey u r) : t = u ∧ s = r := by
  induction t generalizing u with
  | nil =>
    cases u with
    | nil => exact ⟨rfl, List.cons.inj h |>.2⟩
    | cons b u => exact absurd (List.cons.inj h).1 fun hb => hu (hb ▸ mem_cons_self)
  | cons a t ih =>
    cases u with
    | nil => exact absurd (List.cons.inj h).1 fun ha => ht (ha ▸ mem_cons_self)
    | cons b u =>
      obtain ⟨hab, htl⟩ := List.cons.inj h
      obtain ⟨htu, hsr⟩ := ih (fun hm => ht (mem_cons_of_mem a hm)) (fun hm => hu (mem_cons_of_mem b hm)) htl
      exact ⟨by rw [hab, htu], hsr⟩

/-- The registry holds no more than the ledger: a token's entry is the ledger's for the tenant it
names, a user's entry is the ledger's. -/
structure Within (m : RevocationSnapshot) (l : Map RevocationKey Term) : Prop where
  tokens : ∀ jti e, m.jtiRevocations jti = some e → l (e.tenantID, .token jti) = some ⟨0, e.expiresAt⟩
  users : ∀ tenant sub, colon ∉ tenant →
    m.subRevocations (subKey tenant sub) = (l (tenant, .user sub)).map fun t => ⟨t.revokedAt, t.expiresAt⟩

structure Refines (m : RevocationSnapshot) (l : Map RevocationKey Term) : Prop extends Within m l where
  all : ∀ tenant jti t, l (tenant, .token jti) = some t → m.jtiRevocations jti = some ⟨tenant, t.expiresAt⟩

theorem refines_empty : Refines RevocationSnapshot.empty Map.empty where
  tokens _ _ h := by cases h
  users _ _ _ := rfl
  all _ _ _ h := by cases h

def NoClash (m : RevocationSnapshot) (r : TokenRevocation) : Prop :=
  r.type = .token → ∀ e, m.jtiRevocations r.jti = some e → e.tenantID = r.tenantSlug

section Steps
variable {m : RevocationSnapshot} {l : Map RevocationKey Term} {now : Int} {tenant : GoStr}

theorem Within.dropExpired (h : Within m l) : Within (m.dropExpired now) (sweep Term.expiresAt now l) where
  tokens jti e he := by
    simp only [RevocationSnapshot.dropExpired, Option.filter_eq_some_iff, decide_eq_true_iff] at he
    exact sweep_eq_some.2 ⟨h.tokens jti e he.1, he.2⟩
  users tenant sub ht := by
    simp only [RevocationSnapshot.dropExpired, h.users tenant sub ht, sweep]
    cases l (tenant, .user sub) with
    | none => rfl
    | some t => by_cases hex : now < t.expiresAt <;> simp [Option.filter, hex]

theorem Refines.dropExpired (h : Refines m l) : Refines (m.dropExpired now) (sweep Term.expiresAt now l) where
  toWithin := h.toWithin.dropExpired
  all tenant jti t ht := by
    obtain ⟨hl, he⟩ := sweep_eq_some.1 ht
    simp [RevocationSnapshot.dropExpired, h.all tenant jti t hl, he]

/-- Putting a revocation and deleting it are one update, by `some` and by `none`. -/
theorem Within.token (h : Within m l) (tenant jti : GoStr) (exp : Option Int) :
    Within { m with jtiRevocations := update m.jtiRevocations jti (exp.map (⟨tenant, ·⟩)) }
      (update l (tenant, .token jti) (exp.map (⟨0, ·⟩))) where
  tokens jti' e he := by
    dsimp only at he
    by_cases hj : jti' = jti
    · subst hj
      rw [update_self, Option.map_eq_some_iff] at he
      obtain ⟨exp, rfl, rfl⟩ := he
      exact update_self ..
    · rw [update_of_ne hj] at he
      rw [update_of_ne (by simp [hj])]
      exact h.tokens jti' e he
  users tenant' sub ht := by
    rw [update_of_ne (by simp)]
    exact h.users tenant' sub ht

theorem Within.user (h : Within m l) (hc : colon ∉ tenant) (sub : GoStr) (t : Option Term) : Within { m with
        subRevocations := update m.subRevocations (subKey tenant sub) (t.map fun t => ⟨t.revokedAt, t.expiresAt⟩) }
      (update l (tenant, .user sub) t) where
  tokens jti e he := by
    rw [update_of_ne (by simp)]
    exact h.tokens jti e he
  users tenant' sub' ht := by
    dsimp only
    by_cases hk : (tenant', sub') = (tenant, sub)
    · obtain ⟨rfl, rfl⟩ := Prod.mk.inj hk
      rw [update_self, update_self]
    · have hne : subKey tenant' sub' ≠ subKey tenant sub := fun heq => hk (Prod.ext_iff.2 (subKey_inj ht hc heq))
      rw [update_of_ne hne, update_of_ne (by simpa using hk)]
      exact h.users tenant' sub' ht

theorem Refines.token (h : Refines m l) {jti : GoStr} (exp : Option Int)
    (hc : ∀ e, m.jtiRevocations jti = some e → e.tenantID = tenant) :
    Refines { m with jtiRevocations := update m.jtiRevocations jti (exp.map (⟨tenant, ·⟩)) }
      (update l (tenant, .token jti) (exp.map (⟨0, ·⟩))) where
  toWithin := h.toWithin.token tenant jti exp
  all tenant' jti' t ht := by
    dsimp only
    by_cases hj : jti' = jti
    · subst hj
      by_cases htt : tenant' = tenant
      · subst htt
        rw [update_self, Option.map_eq_some_iff] at ht
        obtain ⟨exp, rfl, rfl⟩ := ht
        exact update_self ..
      · rw [update_of_ne (by simp [htt])] at ht
        exact absurd (hc _ (h.all tenant' jti' t ht)) htt
    · rw [update_of_ne (by simp [hj])] at ht
      rw [update_of_ne hj]
      exact h.all tenant' jti' t ht

theorem Refines.user (h : Refines m l) (hc : colon ∉ tenant) (sub : GoStr) (t : Option Term) : Refines { m with
        subRevocations := update m.subRevocations (subKey tenant sub) (t.map fun t => ⟨t.revokedAt, t.expiresAt⟩) }
      (update l (tenant, .user sub) t) where
  toWithin := h.toWithin.user hc sub t
  all tenant' jti t' ht := by
    rw [update_of_ne (by simp)] at ht
    exact h.all tenant' jti t' ht

theorem deltaEntry_rule {P : RevocationSnapshot → Map RevocationKey Term → Prop} (r : TokenRevocation) (hs : P m l)
    (hd : r.type = .token →
      P { m with jtiRevocations := m.jtiRevocations.delete r.jti } (l.delete (r.tenantSlug, .token r.jti)))
    (hp : r.type = .token → P { m with jtiRevocations := m.jtiRevocations.set r.jti ⟨r.tenantSlug, r.expiresAt⟩ }
        (l.set (r.tenantSlug, .token r.jti) ⟨0, r.expiresAt⟩))
    (hdl : P { m with subRevocations := m.subRevocations.delete (subKey r.tenantSlug r.sub) }
      (l.delete (r.tenantSlug, .user r.sub)))
    (hpt : P { m with subRevocations := m.subRevocations.set (subKey r.tenantSlug r.sub) ⟨r.revokedAt, r.expiresAt⟩ }
      (l.set (r.tenantSlug, .user r.sub) ⟨r.revokedAt, r.expiresAt⟩)) :
    P (applyDeltaEntry now m r) (ledgerEntry now l r) := by
  unfold applyDeltaEntry ledgerEntry writeOf RevocationSnapshot.put RevocationSnapshot.delete
  cases hty : r.type with
  | token =>
    cases hr : r.removed with
    | true => exact hd hty
    | false =>
      by_cases he : now < r.expiresAt
      · simpa [Write.apply, he] using hp hty
      · simpa [Write.apply, he] using hs
  | user =>
    cases hr : r.removed with
    | true => exact hdl
    | false =>
      by_cases he : now < r.expiresAt
      · simpa [Write.apply, he] using hpt
      · simpa [Write.apply, he] using hs
  | other name => simpa using hs

theorem Refines.applyDeltaEntry (h : Refines m l) {r : TokenRevocation} (hc : colon ∉ r.tenantSlug)
    (hcl : NoClash m r) : Refines (applyDeltaEntry now m r) (ledgerEntry now l r) := by
  apply deltaEntry_rule r h
  · exact fun hty => h.token none (hcl hty)
  · exact fun hty => h.token (some r.expiresAt) (hcl hty)
  · exact h.user hc r.sub none
  · exact h.user hc r.sub (some ⟨r.revokedAt, r.expiresAt⟩)

end Steps
end Sukko.Gateway
