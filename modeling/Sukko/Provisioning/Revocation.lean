import Mathlib.Data.List.AList
import Sukko.Lib.GoString
/-
# The store of token revocations

Every method runs under the store's mutex.
-/

namespace Sukko.Revocation
open List

inductive RevocationType where
  | token
  | user
  | other (name : GoStr)
deriving DecidableEq

structure Entry where
  tenantID : GoStr
  type : RevocationType
  sub : GoStr
  jti : GoStr
  revokedAt : Int
  expiresAt : Int
deriving DecidableEq

/-- See `provisioning/revocation/store.go:32`. -/
def Entry.key (e : Entry) : GoStr :=
  match e.type with
  | .token => str "jti:" ++ e.jti
  | _ => str "sub:" ++ e.tenantID ++ str ":" ++ e.sub

inductive RevokeErr where
  | tenantIDRequired
  | badType (got : RevocationType)
  | subRequired
  | jtiRequired
deriving DecidableEq

def Entry.check (e : Entry) : Except RevokeErr Unit :=
  if e.tenantID = [] then .error .tenantIDRequired
  else
    match e.type with
    | .other name => .error (.badType (.other name))
    | .user => if e.sub = [] then .error .subRequired else .ok ()
    | .token => if e.jti = [] then .error .jtiRequired else .ok ()

abbrev Store := AList fun _ : GoStr => Entry

namespace Store

/-- See `provisioning/revocation/store.go:74`. -/
def revoke (s : Store) (e : Entry) : Except RevokeErr Store :=
  match e.check with
  | .error err => .error err
  | .ok () => .ok (s.insert e.key e)

def snapshot (s : Store) (now : Int) : List Entry :=
  (s.entries.map Sigma.snd).filter fun e => decide (now < e.expiresAt)

def prune (s : Store) (now : Int) : Store :=
  ⟨s.entries.filter fun p => decide (now < p.2.expiresAt), s.nodupKeys.sublist List.filter_sublist⟩

def has (s : Store) (e : Entry) : Bool := decide (s.lookup e.key = some e)

variable {e : Entry} {s s' : Store} {now : Int}

theorem has_iff : s.has e = true ↔ ⟨e.key, e⟩ ∈ s.entries := by
  rw [has, decide_eq_true_iff, ← Option.mem_def, AList.mem_lookup_iff]

theorem has_prune : (s.prune now).has e = true ↔ s.has e = true ∧ now < e.expiresAt := by
  simp [has_iff, prune]

theorem has_revoke {e' : Entry} (h : s.revoke e = .ok s') : s'.has e' = true ↔ e' = e ∨ s.has e' = true ∧ e'.key ≠ e.key := by
  unfold revoke at h
  split at h
  · cases h
  cases h
  simp only [has, decide_eq_true_iff]
  by_cases hk : e'.key = e.key
  · rw [hk, AList.lookup_insert]
    simp [eq_comm]
  · rw [AList.lookup_insert_ne hk]
    constructor
    · exact fun h => .inr ⟨h, hk⟩
    · rintro (rfl | h)
      · exact absurd rfl hk
      · exact h.1

/-- Everything in the store passed the checks and stands under its own key. -/
def Valid (s : Store) : Prop := ∀ p ∈ s.entries, p.1 = p.2.key ∧ p.2.check = .ok ()

theorem valid_empty : Valid ∅ := by
  intro p hp
  simp at hp

theorem Valid.revoke (h : s.Valid) (hs : s.revoke e = .ok s') : s'.Valid := by
  unfold Store.revoke at hs
  split at hs
  · cases hs
  rename_i hok
  cases hs
  intro p hp
  rw [AList.entries_insert, mem_cons] at hp
  rcases hp with rfl | hp
  · exact ⟨rfl, hok⟩
  · exact h p ((kerase_sublist e.key s.entries).subset hp)

theorem Valid.prune (h : s.Valid) (now : Int) : (s.prune now).Valid := fun p hp => h p (mem_filter.1 hp).1
theorem Valid.check_of_has (h : s.Valid) (he : s.has e = true) : e.check = .ok () := (h _ (has_iff.1 he)).2

theorem Valid.has_of_mem_snapshot (h : s.Valid) (he : e ∈ s.snapshot now) : s.has e = true := by
  simp only [snapshot, mem_filter, mem_map] at he
  obtain ⟨⟨⟨k, e'⟩, hp, rfl⟩, -⟩ := he
  obtain ⟨hk, -⟩ := h _ hp
  exact has_iff.2 (hk ▸ hp)

theorem mem_snapshot_of_has (he : s.has e = true) (hex : now < e.expiresAt) : e ∈ s.snapshot now := by
  simp only [snapshot, mem_filter, mem_map, decide_eq_true_iff]
  exact ⟨⟨⟨e.key, e⟩, has_iff.1 he, rfl⟩, hex⟩

theorem expiresAt_of_mem_snapshot (he : e ∈ s.snapshot now) : now < e.expiresAt := of_decide_eq_true (mem_filter.1 he).2

end Store

structure TokenRevocation where
  tenantSlug : GoStr
  type : RevocationType
  sub : GoStr
  jti : GoStr
  revokedAt : Int
  expiresAt : Int
  removed : Bool
deriving DecidableEq

def Entry.toProto (e : Entry) : TokenRevocation :=
  ⟨e.tenantID, e.type, e.sub, e.jti, e.revokedAt, e.expiresAt, false⟩

def convertRevocationEntries (es : List Entry) : List TokenRevocation := es.map Entry.toProto
def TokenRevocation.entry (r : TokenRevocation) : Entry := ⟨r.tenantSlug, r.type, r.sub, r.jti, r.revokedAt, r.expiresAt⟩

end Sukko.Revocation
