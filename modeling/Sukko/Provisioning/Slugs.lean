import Sukko.Lib.Naming
import Sukko.Lib.Steps
import Sukko.Provisioning.Service
/-
# Who owns a slug

A tenant owns its slug and, until the hold period of its last rename is over, the one it gave up (`OwnsSlug`). Current slugs
are distinct (`uq_tenant_slug`), but neither `CreateTenant` nor `RenameTenant` looks at `previous_slug` (`HeldSlugsFree`).
-/

namespace Sukko.Provisioning
open Naming Steps List

/-! ## Ownership -/

def holdsSlug (hold now : Time) (t : Tenant) (x : GoStr) : Bool :=
  t.previousSlug == some x && t.renameState == some .complete && t.renamedAt.any (now - hold < ·)

def OwnsSlug (hold now : Time) (t : Tenant) (x : GoStr) : Prop :=
  t.deletedAt = none ∧ (t.slug = x ∨ holdsSlug hold now t x = true)

structure Tenant.OK (t : Tenant) : Prop where
  deleted : t.deletedAt = none ↔ t.status ≠ .deleted
  id : t.id ≠ []
  slug : t.slug ≠ []

structure SlugInv (hold now : Time) (rows : List Tenant) : Prop where
  exclusive : Exclusive Tenant.id (OwnsSlug hold now) rows
  rows : ∀ t ∈ rows, t.OK

def noneHolds (hold now : Time) (rows : List Tenant) (x : GoStr) : Bool :=
  rows.all fun t => !(t.deletedAt.isNone && holdsSlug hold now t x)

variable {hold now t₀ : Time} {rows rows' : List Tenant} {cfg : Config} {id prev x newSlug slug : GoStr} {t : Tenant} {f : Tenant → Tenant}
  {p : Tenant → Bool} {st : Store}

theorem not_ownsSlug_of_noneHolds (h : noneHolds hold now rows x = true) (ht : t ∈ rows) (hs : t.slug ≠ x) :
    ¬OwnsSlug hold now t x := by
  rintro ⟨hd, hx | hx⟩
  · exact hs hx
  · have := all_eq_true.1 h t ht
    simp [hd, hx] at this

theorem holdsSlug_of_later {d : Nat} (h : holdsSlug hold (now + d) t x = true) : holdsSlug hold now t x = true := by
  unfold holdsSlug at h ⊢
  cases hat : t.renamedAt with
  | none => simp [hat] at h
  | some at_ =>
    simp only [hat, Bool.and_eq_true, Option.any_some, decide_eq_true_eq] at h ⊢
    have hl : ∀ n o a : Int, n + d - o < a → n - o < a := by intro n o a; omega
    exact ⟨h.1, hl now hold at_ h.2⟩

section
variable (h : SlugInv hold now rows)
include h

theorem SlugInv.tick (d : Nat) : SlugInv hold (now + d) rows where
  exclusive := h.exclusive.mono fun _ _ ⟨hd, hx⟩ => ⟨hd, hx.imp_right holdsSlug_of_later⟩
  rows := h.rows

/-! ## The statements -/

theorem SlugInv.update (hid : ∀ t, (f t).id = t.id) (hok : ∀ t, p t = true → t.OK → (f t).OK)
    (ho : ∀ t x, p t = true → OwnsSlug hold now (f t) x → OwnsSlug hold now t x) :
    SlugInv hold now (updateWhere p f rows) := by
  constructor
  · refine h.exclusive.shrink _ ?_ ?_
    · intro t
      split
      · exact hid t
      · rfl
    · intro t _ x hx
      split at hx
      · exact ho t x ‹_› hx
      · exact hx
  · intro t ht
    obtain ⟨u, hu, rfl⟩ := mem_map.1 ht
    split
    · exact hok u ‹_› (h.rows u hu)
    · exact h.rows u hu

theorem SlugInv.clearRenameState (id : GoStr) : SlugInv hold now (Tenants.clearRenameState rows id) := by
  refine h.update (fun _ => rfl) (fun _ _ hok => ⟨hok.deleted, hok.id, hok.slug⟩) ?_
  rintro t x - ⟨hd, hx | hx⟩
  · exact ⟨hd, .inl hx⟩
  · simp [holdsSlug] at hx

theorem SlugInv.setRenameState (hs : Tenants.setRenameState rows id .pending prev = .ok rows') : SlugInv hold now rows' := by
  unfold Tenants.setRenameState at hs
  dsimp only at hs
  split at hs <;> cases hs
  refine h.update (fun _ => rfl) (fun _ _ hok => ⟨hok.deleted, hok.id, hok.slug⟩) ?_
  rintro t x - ⟨hd, hx | hx⟩
  · exact ⟨hd, .inl hx⟩
  · simp [holdsSlug] at hx

theorem SlugInv.setDeprovisionAt (id : GoStr) (at_ : Time) : SlugInv hold now (Tenants.setDeprovisionAt rows id at_) :=
  h.update (fun _ => rfl) (fun _ _ hok => ⟨hok.deleted, hok.id, hok.slug⟩) fun _ _ _ hx => hx

end

theorem statusSources_ne_deleted {st s : Status} (h : (Tenants.statusSources st).contains s = true) : s ≠ .deleted := by
  cases st <;> cases s <;> simp_all [Tenants.statusSources]

theorem SlugInv.updateStatus (h : SlugInv hold now rows) {st : Status}
    (hs : Tenants.updateStatus t₀ rows id st = .ok rows') : SlugInv hold now rows' := by
  unfold Tenants.updateStatus at hs
  dsimp only at hs
  split at hs <;> cases hs
  refine h.update (fun _ => rfl) ?_ ?_
  · intro t hp hok
    have hsr := statusSources_ne_deleted (Bool.and_eq_true_iff.1 hp).2
    refine ⟨?_, hok.id, hok.slug⟩
    by_cases hst : st = .deleted
    · simp [hst]
    · simp [hst, hok.deleted.2 hsr]
  · rintro t x hp ⟨hd, hx⟩
    refine ⟨?_, hx⟩
    by_cases hst : st = .deleted
    · simp [hst] at hd
    · simpa [hst] using hd

theorem SlugInv.create (h : SlugInv hold now rows) (hid : id ≠ []) (hf : ∀ t ∈ rows, t.id ≠ id)
    (hsl : slug ≠ []) (hfr : noneHolds hold now rows slug = true) (hs : Tenants.create t₀ rows id slug = .ok rows') :
    SlugInv hold now rows' := by
  unfold Tenants.create at hs
  split at hs <;> cases hs
  rename_i htk
  have hc : ∀ t ∈ rows, t.slug ≠ slug := by
    intro t ht heq
    exact htk (any_eq_true.2 ⟨t, ht, by simp [heq]⟩)
  constructor
  · refine h.exclusive.insert _ hf ?_
    rintro t ht x ⟨-, hx | hx⟩
    · subst hx
      exact not_ownsSlug_of_noneHolds hfr ht (hc t ht)
    · simp [holdsSlug] at hx
  · exact forall_mem_append.2 ⟨h.rows, forall_mem_singleton.2 ⟨by simp, hid, hsl⟩⟩

theorem SlugInv.updateSlug (h : SlugInv hold now rows) (hsl : newSlug ≠ [])
    (hf : ∀ t ∈ rows, t.id ≠ id → t.slug ≠ newSlug → ¬OwnsSlug hold now t newSlug)
    (hs : Tenants.updateSlug now rows id newSlug = .ok rows') : SlugInv hold now rows' := by
  unfold Tenants.updateSlug at hs
  split at hs
  · cases hs
  split at hs <;> cases hs
  rename_i htk _
  have hc : ∀ t ∈ rows, t.id ≠ id → t.slug ≠ newSlug := by
    intro t ht hne heq
    exact htk (any_eq_true.2 ⟨t, ht, by simp [hne, heq]⟩)
  constructor
  · refine h.exclusive.gain _ id newSlug ?_ ?_ ?_ ?_
    · intro t
      split <;> rfl
    · intro t _ hne
      simp [hne]
    · intro t _ x hx
      split at hx
      · obtain ⟨hd, hx | hx⟩ := hx
        · exact .inr hx.symm
        · -- what the tenant holds from now on is the slug it had
          simp only [holdsSlug, Bool.and_eq_true, beq_iff_eq, Option.some.injEq] at hx
          exact .inl ⟨hd, .inl hx.1.1⟩
      · exact .inl hx
    · exact fun t ht hne => hf t ht hne (hc t ht hne)
  · intro t ht
    obtain ⟨u, hu, rfl⟩ := mem_map.1 ht
    have hok := h.rows u hu
    split
    · exact ⟨hok.deleted, hok.id, hsl⟩
    · exact hok

/-! ## The methods -/

theorem identPattern_ne_nil {s : GoStr} (h : identPattern s = true) : s ≠ [] := by
  rintro rfl
  cases h

theorem mem_of_mem_updateWhere (hp : ∀ t, p t = true → (f t).id = id)
    (ht : t ∈ updateWhere p f rows) (hne : t.id ≠ id) : t ∈ rows := by
  obtain ⟨u, hu, rfl⟩ := mem_map.1 ht
  split at hne
  · exact absurd (hp u ‹_›) hne
  · simp [*]

theorem clearRenameState_others (ht : t ∈ Tenants.clearRenameState rows id) (hne : t.id ≠ id) : t ∈ rows :=
  mem_of_mem_updateWhere (fun u hu => by simpa using hu) ht hne

theorem setRenameState_others (hs : Tenants.setRenameState rows id .pending prev = .ok rows') (ht : t ∈ rows')
    (hne : t.id ≠ id) : t ∈ rows := by
  unfold Tenants.setRenameState at hs
  dsimp only at hs
  split at hs <;> cases hs
  exact mem_of_mem_updateWhere (fun u hu => by simpa using (Bool.and_eq_true_iff.1 hu).1) ht hne

theorem SlugInv.renameTenant (h : SlugInv cfg.holdPeriod now st.tenants) {kafkaOK : Bool}
    (hf : noneHolds cfg.holdPeriod now st.tenants newSlug = true) :
    SlugInv cfg.holdPeriod now (renameTenant cfg now st slug newSlug kafkaOK).store.tenants := by
  let P : Store → Prop := fun st' => SlugInv cfg.holdPeriod now st'.tenants
  change P _
  unfold Provisioning.renameTenant
  refine ite_rule (fun _ => h) fun hp => ite_rule (fun _ => h) fun _ =>
    withActiveTenant_rule h fun t _ _ => ite_rule (fun _ => h) fun _ => ite_rule (fun _ => h) fun _ => ?_
  have hne : newSlug ≠ [] := identPattern_ne_nil (by simpa using hp)
  -- the table with or without the residue of an earlier rename
  obtain ⟨rows, hr, hin, ho⟩ : ∃ rows, (if t.renamedAt.isSome
      then { st with tenants := Tenants.clearRenameState st.tenants t.id } else st) = { st with tenants := rows } ∧
      SlugInv cfg.holdPeriod now rows ∧ ∀ u ∈ rows, u.id ≠ t.id → u ∈ st.tenants := by
    split
    · exact ⟨_, rfl, h.clearRenameState t.id, fun u hu => clearRenameState_others hu⟩
    · exact ⟨_, rfl, h, fun u hu _ => hu⟩
  simp only [hr]
  split
  · exact hin
  split
  · exact hin
  rename_i rows₂ hset
  have hi : SlugInv cfg.holdPeriod now rows₂ := hin.setRenameState hset
  split
  · exact hi
  · split
    · exact hi.clearRenameState t.id
    · rename_i rows₃ hup
      refine hi.updateSlug hne ?_ hup
      intro u hu hid hc
      exact not_ownsSlug_of_noneHolds hf (ho u (setRenameState_others hset hu hid) hid) hc

def freshID (rows : List Tenant) : Op → Bool
  | .createTenant _ id _ _ => id ≠ [] && rows.all (·.id != id)
  | _ => true

def heldSlugFree (hold now : Time) (rows : List Tenant) : Op → Bool
  | .createTenant slug _ _ _ => noneHolds hold now rows slug
  | .renameTenant _ newSlug _ => noneHolds hold now rows newSlug
  | _ => true

/-- **One call keeps slugs exclusive** if it takes no slug that is on hold. -/
theorem SlugInv.exec (h : SlugInv cfg.holdPeriod now st.tenants) {o : Op} (hid : freshID st.tenants o = true)
    (hf : heldSlugFree cfg.holdPeriod now st.tenants o = true) :
    SlugInv cfg.holdPeriod now (exec cfg now st o).store.tenants := by
  have hcr : ∀ {slug id key kafkaOK tenants}, o = .createTenant slug id key kafkaOK → identPattern slug = true →
      Tenants.create now st.tenants id slug = .ok tenants → SlugInv cfg.holdPeriod now tenants := by
    rintro slug id key kafkaOK tenants rfl hsl hc
    obtain ⟨hne, hfr⟩ := Bool.and_eq_true_iff.1 hid
    exact h.create (by simpa using hne) (fun t ht => by simpa using all_eq_true.1 hfr t ht) (identPattern_ne_nil hsl) hf hc
  have hl := exec_leaves cfg now st o
  generalize (Provisioning.exec cfg now st o).store = st' at hl ⊢
  cases hl with
  | tenantCreated hsl hc | tenantCreatedWithKey hsl hc => exact hcr rfl hsl hc
  | renamed => exact h.renameTenant hf
  | statusMoved hs | forceDeleted hs => exact h.updateStatus hs
  | deprovisioned hs => exact (h.updateStatus hs).setDeprovisionAt _ _
  | unchanged | keyCreated | keyRevoked | apiKeyCreated | apiKeyRevoked | rulesWritten => exact h

/-! ## Runs -/

structure TenantState where
  now : Time
  store : Store

def TenantState.init : TenantState := ⟨0, Store.empty⟩

inductive TenantAct
  | op (o : Op)
  | tick (d : Nat)
deriving DecidableEq

def tenantStep (cfg : Config) (s : TenantState) : TenantAct → Option TenantState
  | .op o => if freshID s.store.tenants o then some { s with store := (exec cfg s.now s.store o).store } else none
  | .tick d => some { s with now := s.now + d }

def HeldSlugsFree (cfg : Config) (s : TenantState) : TenantAct → Bool
  | .op o => heldSlugFree cfg.holdPeriod s.now s.store.tenants o
  | .tick _ => true

theorem SlugInv.step {s s' : TenantState} {a : TenantAct} (h : SlugInv cfg.holdPeriod s.now s.store.tenants)
    (hok : HeldSlugsFree cfg s a = true) (hs : tenantStep cfg s a = some s') :
    SlugInv cfg.holdPeriod s'.now s'.store.tenants := by
  cases a with
  | op o =>
    simp only [tenantStep] at hs
    split at hs <;> cases hs
    exact h.exec ‹_› hok
  | tick d =>
    cases hs
    exact h.tick d

/-- **Slugs have one owner** in every state of every run that takes no slug on hold. -/
theorem SlugInv.run {as : List TenantAct} {s : TenantState}
    (hok : Along (tenantStep cfg) (fun s a => HeldSlugsFree cfg s a = true) TenantState.init as)
    (hr : run (tenantStep cfg) TenantState.init as = some s) : SlugInv cfg.holdPeriod s.now s.store.tenants := by
  have h0 : SlugInv cfg.holdPeriod TenantState.init.now TenantState.init.store.tenants :=
    ⟨Exclusive.nil, by simp [TenantState.init, Store.empty]⟩
  exact run_invariant_along (fun s => SlugInv cfg.holdPeriod s.now s.store.tenants)
    (fun _ _ _ hi hok hs => hi.step hok hs) h0 hok hr

end Sukko.Provisioning
