import Sukko.Lib.Table
import Sukko.Provisioning.Service
/-
# What a service call does to the credential tables

However a call returns, `tenant_keys` and `api_keys` change by inserts under fresh ids and by revocations. The parameter
`parses` is `auth.ParsePublicKey`.
-/

namespace Sukko.Provisioning
open Table

/-- A key is active until it has a revocation time, and its public key parses. -/
def TenantKey.Good (parses : GoStr → GoStr → Bool) (k : TenantKey) : Prop :=
  (k.isActive = true ↔ k.revokedAt = none) ∧ parses k.publicKey k.algorithm = true

def APIKey.Good (k : APIKey) : Prop := k.isActive = true ↔ k.revokedAt = none

def Op.newKey : Op → Option KeyInput
  | .createTenant _ _ key _ => key
  | .createKey _ key => some key
  | _ => none

def Op.keyParses (parses : GoStr → GoStr → Bool) (o : Op) : Bool :=
  o.newKey.all fun k => parses k.publicKey k.algorithm

/-! ## Signing keys -/

variable {keyID : GoStr} {now : Time}

section Keys
variable {parses : GoStr → GoStr → Bool} {rows rows' : List TenantKey}

abbrev KeyWrites (parses : GoStr → GoStr → Bool) := Writes TenantKey.keyID (TenantKey.Good parses)

theorem not_mem_map_of_any_eq_false {ρ : Type} {key : ρ → GoStr} {rows : List ρ} {k : GoStr}
    (h : ¬(rows.any fun r => key r == k) = true) : k ∉ rows.map key := by
  intro hk
  obtain ⟨r, hr, rfl⟩ := List.mem_map.1 hk
  exact h (List.any_eq_true.2 ⟨r, hr, by simp⟩)

theorem Keys.create_writes {k : KeyInput} {tenantID : GoStr} (hp : parses k.publicKey k.algorithm = true)
    (h : Keys.create rows (k.row tenantID) = .ok rows') : KeyWrites parses rows rows' := by
  unfold Keys.create at h
  split at h
  · cases h
  · cases h
    refine .single (.insert _ (not_mem_map_of_any_eq_false ‹_›) ?_)
    exact ⟨by simp, hp⟩

theorem Keys.revokeWhere_writes (p : TenantKey → Bool) (now : Time) :
    KeyWrites parses rows (updateWhere p (fun k => { k with isActive := false, revokedAt := some now }) rows) := by
  refine .single (.modify _ ?_ ?_)
  · intro k
    split <;> rfl
  · intro k hk
    split
    · exact ⟨by simp, hk.2⟩
    · exact hk

theorem Keys.revoke_writes (h : Keys.revoke now rows keyID = .ok rows') : KeyWrites parses rows rows' := by
  unfold Keys.revoke at h
  split at h
  · cases h
    exact Keys.revokeWhere_writes _ now
  · cases h

end Keys

/-! ## API keys -/

section APIKeys
variable {rows rows' : List APIKey}

abbrev APIKeyWrites := Writes APIKey.keyID APIKey.Good

theorem APIKeys.create_writes {tenantID name : GoStr}
    (h : APIKeys.create rows ⟨keyID, tenantID, name, true, now, none⟩ = .ok rows') : APIKeyWrites rows rows' := by
  unfold APIKeys.create at h
  split at h
  · cases h
  · cases h
    exact .single (.insert _ (not_mem_map_of_any_eq_false ‹_›) (by simp [APIKey.Good]))

theorem APIKeys.revoke_writes (h : APIKeys.revoke now rows keyID = .ok rows') : APIKeyWrites rows rows' := by
  unfold APIKeys.revoke at h
  split at h
  · cases h
    refine .single (.modify _ ?_ ?_)
    · intro k
      split <;> rfl
    · intro k hk
      split
      · simp [APIKey.Good]
      · exact hk
  · cases h

theorem revokeAPIKeysOf_writes (now : Time) (rows : List APIKey) (tenantID : GoStr) :
    APIKeyWrites rows (revokeAPIKeysOf now rows tenantID) := by
  unfold revokeAPIKeysOf
  generalize (APIKeys.listByTenant rows tenantID 10000).filter (·.isActive) = page
  induction page generalizing rows with
  | nil => exact .refl
  | cons k page ih =>
    refine .trans ?_ (ih _)
    change APIKeyWrites rows ((APIKeys.revoke now rows k.keyID).toOption.getD rows)
    cases h : APIKeys.revoke now rows k.keyID with
    | error e => exact .refl
    | ok rows' => exact APIKeys.revoke_writes h

end APIKeys

/-! ## Any method -/

structure CredentialEffect (parses : GoStr → GoStr → Bool) (st st' : Store) : Prop where
  keys : KeyWrites parses st.keys st'.keys
  apiKeys : APIKeyWrites st.apiKeys st'.apiKeys

namespace CredentialEffect
variable {parses : GoStr → GoStr → Bool} {st st' : Store}

theorem of_eq (hk : st'.keys = st.keys) (ha : st'.apiKeys = st.apiKeys) : CredentialEffect parses st st' :=
  ⟨hk ▸ .refl, ha ▸ .refl⟩

theorem same : CredentialEffect parses st st := of_eq rfl rfl

theorem of_revokeAll {now : Time} {id : GoStr} (hk : st'.keys = Keys.revokeAllForTenant now st.keys id)
    (ha : APIKeyWrites st.apiKeys st'.apiKeys) : CredentialEffect parses st st' :=
  ⟨hk ▸ Keys.revokeWhere_writes _ now, ha⟩

end CredentialEffect

theorem renameTenant_frame (cfg : Config) (now : Time) (st : Store) (slug newSlug : GoStr) (kafkaOK : Bool) :
    ∃ tenants, (renameTenant cfg now st slug newSlug kafkaOK).store = { st with tenants } := by
  have same : ∃ tenants, st = { st with tenants } := ⟨st.tenants, rfl⟩
  let P : Store → Prop := fun st' => ∃ tenants, st' = { st with tenants }
  change P _
  unfold renameTenant
  refine ite_rule (fun _ => same) fun _ => ite_rule (fun _ => same) fun _ =>
    withActiveTenant_rule same fun t _ _ => ite_rule (fun _ => same) fun _ => ite_rule (fun _ => same) fun _ => ?_
  -- the store from here on, with or without the residue of an earlier rename
  obtain ⟨rows, hr⟩ : ∃ rows, (if t.renamedAt.isSome
      then { st with tenants := Tenants.clearRenameState st.tenants t.id } else st) = { st with tenants := rows } := by
    split
    · exact ⟨_, rfl⟩
    · exact same
  simp only [hr]
  split
  · exact ⟨_, rfl⟩
  · split
    · exact ⟨_, rfl⟩
    · split
      · exact ⟨_, rfl⟩
      · split <;> exact ⟨_, rfl⟩

/-- **Credentials are inserted and revoked**, by every method and on every path. -/
theorem exec_credentials {parses : GoStr → GoStr → Bool} (cfg : Config) (now : Time) (st : Store) (o : Op)
    (hp : o.keyParses parses = true) : CredentialEffect parses st (exec cfg now st o).store := by
  have hpr : ∀ k, o.newKey = some k → parses k.publicKey k.algorithm = true := by
    intro k hk
    simpa [Op.keyParses, hk] using hp
  have hl := exec_leaves cfg now st o
  generalize (Provisioning.exec cfg now st o).store = st' at hl ⊢
  cases hl with
  | unchanged => exact .same
  | tenantCreated | statusMoved | rulesWritten => exact .of_eq rfl rfl
  | tenantCreatedWithKey _ _ hky => exact ⟨Keys.create_writes (hpr _ rfl) hky, .refl⟩
  | renamed =>
    obtain ⟨tenants, h⟩ := renameTenant_frame cfg now st _ _ _
    rw [h]
    exact .of_eq rfl rfl
  | deprovisioned => exact .of_revokeAll rfl .refl
  | forceDeleted => exact .of_revokeAll rfl (revokeAPIKeysOf_writes now st.apiKeys _)
  | keyCreated h => exact ⟨Keys.create_writes (hpr _ rfl) h, .refl⟩
  | keyRevoked h => exact ⟨Keys.revoke_writes h, .refl⟩
  | apiKeyCreated h => exact ⟨.refl, APIKeys.create_writes h⟩
  | apiKeyRevoked h => exact ⟨.refl, APIKeys.revoke_writes h⟩

end Sukko.Provisioning
