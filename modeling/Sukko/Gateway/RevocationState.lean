import Sukko.Gateway.Revocations
import Sukko.Lib.Steps
/-
# What `IsRevoked` answers after any stream

A message (`provisioning/grpcserver/server.go:801-846`) carries all entries of the store that have not expired, in any order, and
a delta may name removals besides.
-/

namespace Sukko.Gateway.RevocationState
open Replica Ledger Revocation Steps List

structure State where
  store : Store
  snapshot : RevocationSnapshot
  started : Bool
  clock : Int
  applied : List TokenRevocation

def init : State := ⟨∅, RevocationSnapshot.empty, false, 0, []⟩

inductive Act where
  | revoke (e : Entry)
  | prune (now : Int)
  | deliver (isSnapshot : Bool) (sent now : Int) (revs : List TokenRevocation)

def effective (now : Int) (r : TokenRevocation) : Bool := r.removed || decide (now < r.expiresAt)

/-- The message is what the server makes of its store at the time `sent`. -/
def sendable (s : State) (isSnapshot : Bool) (sent : Int) (revs : List TokenRevocation) : Bool :=
  (revs.all fun r => decide (colon ∉ r.tenantSlug) &&
      if r.removed then !isSnapshot else s.store.has r.entry && decide (sent < r.expiresAt)) &&
    (convertRevocationEntries (s.store.snapshot sent)).all (· ∈ revs)

def applyMessage (s : State) (isSnapshot : Bool) (now : Int) (revs : List TokenRevocation) : RevocationSnapshot :=
  if isSnapshot then applySnapshot now revs else applyDelta now s.snapshot revs

def step (s : State) : Act → Option State
  | .revoke e =>
    if colon ∈ e.tenantID then none
    else
      match s.store.revoke e with
      | .ok store => some { s with store := store }
      | .error _ => some s
  | .prune now => some { s with store := s.store.prune now }
  | .deliver isSnapshot sent now revs =>
    if isSnapshot ≠ s.started ∧ s.clock ≤ now ∧ sendable s isSnapshot sent revs = true then
      some { s with
        snapshot := applyMessage s isSnapshot now revs, started := true, clock := now
        applied := s.applied ++ revs.filter (effective now) }
    else none

def State.log (s : State) : List (Write RevocationKey Term) := s.applied.filterMap writeOf

/-- The tenant's revocation was applied and not removed since. -/
def State.Standing (s : State) (tenant : GoStr) (target : Target) (t : Term) : Prop :=
  Ledger.Standing s.log (tenant, target) t

/-! ## The condition -/

/-- The entry writes to no `jti` under which another tenant's revocation stands, and shortens no
revocation of its own tenant. -/
def cleanEntry (m : RevocationSnapshot) (r : TokenRevocation) : Bool :=
  match r.type with
  | .token =>
    (m.jtiRevocations r.jti).all fun e =>
      e.tenantID == r.tenantSlug && (r.removed || decide (e.expiresAt ≤ r.expiresAt))
  | .user =>
    r.removed || (m.subRevocations (subKey r.tenantSlug r.sub)).all fun e =>
      decide (e.revokedAt ≤ r.revokedAt) && decide (e.expiresAt ≤ r.expiresAt)
  | .other _ => true

def cleanAll (now : Int) : RevocationSnapshot → List TokenRevocation → Bool
  | _, [] => true
  | m, r :: rs => (!effective now r || cleanEntry m r) && cleanAll now (applyDeltaEntry now m r) rs

def base (s : State) (isSnapshot : Bool) (now : Int) : RevocationSnapshot :=
  if isSnapshot then RevocationSnapshot.empty else s.snapshot.dropExpired now

/-- Besides, no call of another tenant has a key (a `jti`) that is in the store. -/
def clean (s : State) : Act → Bool
  | .revoke e => (s.store.lookup e.key).all fun old => old.tenantID == e.tenantID
  | .prune _ => true
  | .deliver isSnapshot _ now revs => cleanAll now (base s isSnapshot now) revs

/-! ## One entry -/

variable {a : Act} {as : List Act} {isSnapshot : Bool} {revs : List TokenRevocation} {s' s₁ : State}

section Entries
variable {m : RevocationSnapshot} {l : Map RevocationKey Term} {log : List (Write RevocationKey Term)} {now : Int}
  {r : TokenRevocation}

theorem applyDeltaEntry_of_not_effective (h : effective now r = false) : applyDeltaEntry now m r = m := by
  simp only [effective, Bool.or_eq_false_iff, decide_eq_false_iff_not] at h
  simp [applyDeltaEntry, h.1, h.2]

variable {w : Write RevocationKey Term}

theorem writeOf_effective (h : writeOf r = some w) : w.effective Term.expiresAt now = effective now r := by
  unfold writeOf at h
  cases hty : r.type with
  | token | user => cases hr : r.removed <;> simp_all [effective] <;> subst h <;> simp [Write.effective]
  | other name => simp [hty] at h

theorem writeOf_key (h : writeOf r = some w) : w.key.1 = r.tenantSlug := by
  unfold writeOf at h
  cases hty : r.type with
  | token | user => cases hr : r.removed <;> simp_all <;> subst h <;> rfl
  | other name => simp [hty] at h

structure Kept (now : Int) (l : Map RevocationKey Term) (log : List (Write RevocationKey Term)) : Prop where
  recorded : Recorded l log
  covered : Covered Term.expiresAt Term.le now l log

theorem kept_empty (now : Int) : Kept now Map.empty [] where
  recorded _ _ h := by cases h
  covered k t h := absurd h (standing_nil k t)

theorem noClash_of_clean (h : cleanEntry m r = true) : NoClash m r := by
  intro hty e he
  simp only [cleanEntry, hty, he, Option.all_some, Bool.and_eq_true, beq_iff_eq] at h
  exact h.1

theorem raises_of_clean (hm : Refines m l) (hcolon : colon ∉ r.tenantSlug) (h : cleanEntry m r = true)
    (hw : writeOf r = some w) : Raises Term.expiresAt Term.le now l w := by
  unfold writeOf at hw
  unfold cleanEntry at h
  cases hty : r.type with
  | token =>
    simp only [hty, Option.some.injEq] at hw h
    cases hr : r.removed with
    | true => subst hw; simp [hr, Raises]
    | false =>
      simp only [hr, Bool.false_eq_true, if_false] at hw
      subst hw
      intro _ old hold
      have he := hm.all r.tenantSlug r.jti old hold
      have ho := hm.tokens r.jti _ he
      rw [hold, Option.some.injEq] at ho
      simp only [he, hr, Option.all_some, Bool.and_eq_true, Bool.false_or, decide_eq_true_iff] at h
      exact ⟨by rw [ho], h.2⟩
  | user =>
    simp only [hty, Option.some.injEq] at hw h
    cases hr : r.removed with
    | true => subst hw; simp [hr, Raises]
    | false =>
      simp only [hr, Bool.false_eq_true, if_false, Bool.false_or] at hw h
      subst hw
      intro _ old hold
      have he := hm.users r.tenantSlug r.sub hcolon
      rw [hold, Option.map_some] at he
      simp only [he, Option.all_some, Bool.and_eq_true, decide_eq_true_iff] at h
      exact h
  | other name => simp [hty] at hw

theorem log_cons (r : TokenRevocation) (rs : List TokenRevocation) : ((r :: rs).filter (effective now)).filterMap writeOf =
      (([r].filter (effective now)).filterMap writeOf) ++ (rs.filter (effective now)).filterMap writeOf := by
  rw [← filterMap_append, ← filter_append]
  rfl

theorem Kept.entry (h : Kept now l log) (hm : Refines m l) (hcolon : colon ∉ r.tenantSlug)
    (hc : effective now r = true → cleanEntry m r = true) :
    Kept now (ledgerEntry now l r) (log ++ ([r].filter (effective now)).filterMap writeOf) := by
  unfold ledgerEntry
  cases hw : writeOf r with
  | none =>
    have hn : ([r].filter (effective now)).filterMap writeOf = [] := by
      cases hef : effective now r <;> simp [hef, hw]
    rw [hn, append_nil]
    exact h
  | some w =>
    have hef : w.effective Term.expiresAt now = effective now r := writeOf_effective hw
    have hlg : ([r].filter (effective now)).filterMap writeOf = [w].filter (·.effective Term.expiresAt now) := by
      cases he : effective now r <;> simp [he, hef, hw]
    rw [hlg]
    refine ⟨h.recorded.apply w, h.covered.apply (fun _ => ⟨le_rfl, le_rfl⟩) ?_ ?_⟩
    · exact fun _ _ _ h1 h2 => ⟨h1.1.trans h2.1, h1.2.trans h2.2⟩
    · cases he : effective now r with
      | true => exact raises_of_clean hm hcolon (hc he) hw
      | false =>
        -- an expired addition has no effect, so nothing is replaced
        cases w with
        | remove k => trivial
        | add k t =>
          intro hl
          rw [he, Write.effective, decide_eq_false_iff_not] at hef
          exact absurd hl hef

theorem Refines.entry (hm : Refines m l) (hcolon : colon ∉ r.tenantSlug) (hc : effective now r = true → cleanEntry m r = true) :
    Refines (applyDeltaEntry now m r) (ledgerEntry now l r) := by
  cases he : effective now r with
  | true => exact hm.applyDeltaEntry hcolon (noClash_of_clean (hc he))
  | false =>
    have hs : ledgerEntry now l r = l := by
      unfold ledgerEntry
      cases hw : writeOf r with
      | none => rfl
      | some w => exact apply_of_not_effective ((writeOf_effective hw).trans he)
    rw [applyDeltaEntry_of_not_effective he, hs]
    exact hm

theorem cleanAll_cons {rs : List TokenRevocation} : cleanAll now m (r :: rs) = true ↔
    (effective now r = true → cleanEntry m r = true) ∧ cleanAll now (applyDeltaEntry now m r) rs = true := by
  rw [cleanAll, Bool.and_eq_true]
  cases effective now r <;> simp

theorem Refines.entries (hm : Refines m l) (hcolon : ∀ r ∈ revs, colon ∉ r.tenantSlug) (hc : cleanAll now m revs = true) :
    Refines (revs.foldl (applyDeltaEntry now) m) (revs.foldl (ledgerEntry now) l) := by
  induction revs generalizing m l with
  | nil => exact hm
  | cons r rs ih =>
    obtain ⟨hr, hl⟩ := cleanAll_cons.1 hc
    exact ih (Refines.entry hm (hcolon r mem_cons_self) hr) (fun q hq => hcolon q (mem_cons_of_mem r hq)) hl

theorem Kept.entries (h : Kept now l log) (hm : Refines m l) (hcolon : ∀ r ∈ revs, colon ∉ r.tenantSlug)
    (hcl : cleanAll now m revs = true) :
    Kept now (revs.foldl (ledgerEntry now) l) (log ++ (revs.filter (effective now)).filterMap writeOf) := by
  induction revs generalizing m l log with
  | nil => simpa using h
  | cons r rs ih =>
    obtain ⟨hr, hl⟩ := cleanAll_cons.1 hcl
    have hc := hcolon r mem_cons_self
    rw [log_cons, ← append_assoc]
    exact ih (h.entry hm hc hr) (Refines.entry hm hc hr) (fun q hq => hcolon q (mem_cons_of_mem r hq)) hl

end Entries

/-! ## Runs -/

structure Inv (s : State) : Prop where
  store : s.store.Valid
  valid : ∀ r ∈ s.applied, r.removed = false → r.entry.check = .ok ()
  first : s.started = false → s.applied = []
  ledger : ∃ l, Refines s.snapshot l ∧ Kept s.clock l s.log

theorem inv_init : Inv init where
  store := Store.valid_empty
  valid _ h := by cases h
  first _ := rfl
  ledger := ⟨Map.empty, refines_empty, kept_empty 0⟩

variable {s : State}

theorem sendable_iff {sent : Int} : sendable s isSnapshot sent revs = true ↔
    (∀ r ∈ revs, colon ∉ r.tenantSlug ∧ (r.removed = true → isSnapshot = false) ∧
      (r.removed = false → s.store.has r.entry = true ∧ sent < r.expiresAt)) ∧
    ∀ e ∈ s.store.snapshot sent, e.toProto ∈ revs := by
  simp only [sendable, convertRevocationEntries, all_eq_true, Bool.and_eq_true, decide_eq_true_iff, forall_mem_map]
  refine and_congr_left fun _ => forall₂_congr fun r _ => and_congr_right fun _ => ?_
  cases r.removed <;> simp

theorem applyMessage_eq {sent now : Int} (h : sendable s isSnapshot sent revs = true) :
    applyMessage s isSnapshot now revs = revs.foldl (applyDeltaEntry now) (base s isSnapshot now) := by
  cases isSnapshot with
  | false => rfl
  | true =>
    have ha : ∀ r ∈ revs, r.removed = false := fun r hr => by
      cases hrm : r.removed with
      | false => rfl
      | true => cases ((sendable_iff.1 h).1 r hr).2.1 hrm
    exact applySnapshot_eq ha

theorem step_deliver {sent now : Int} (h : step s (.deliver isSnapshot sent now revs) = some s') :
    isSnapshot ≠ s.started ∧ s.clock ≤ now ∧ sendable s isSnapshot sent revs = true ∧
      s' = { s with snapshot := revs.foldl (applyDeltaEntry now) (base s isSnapshot now), started := true,
                    clock := now, applied := s.applied ++ revs.filter (effective now) } := by
  simp only [step, guarded] at h
  obtain ⟨⟨hst, hc, hs⟩, rfl⟩ := h
  exact ⟨hst, hc, hs, by rw [applyMessage_eq hs]⟩

theorem base_kept {l : Map RevocationKey Term} {now : Int} (hm : Refines s.snapshot l) (hk : Kept s.clock l s.log)
    (hc : s.clock ≤ now) (hf : isSnapshot = true → s.log = []) :
    ∃ l', Refines (base s isSnapshot now) l' ∧ Kept now l' s.log := by
  cases isSnapshot with
  | false =>
    refine ⟨_, hm.dropExpired, hk.recorded.sweep, hk.covered.sweep (fun _ _ h => h.2) hc⟩
  | true =>
    rw [hf rfl]
    exact ⟨Map.empty, refines_empty, kept_empty now⟩

theorem Inv.step (h : Inv s) (hc : clean s a = true) (hst : step s a = some s') : Inv s' := by
  cases a with
  | revoke e =>
    simp only [RevocationState.step] at hst
    split at hst
    · cases hst
    split at hst
    · rename_i store hs
      cases hst
      exact ⟨h.store.revoke hs, h.valid, h.first, h.ledger⟩
    · cases hst
      exact h
  | prune now =>
    cases hst
    exact ⟨h.store.prune now, h.valid, h.first, h.ledger⟩
  | deliver isSnapshot sent now revs =>
    obtain ⟨hsr, hcl, hsn, rfl⟩ := step_deliver hst
    have hrv := (sendable_iff.1 hsn).1
    refine ⟨h.store, fun r hr hrm => ?_, nofun, ?_⟩
    · rcases mem_append.1 hr with hr | hr
      · exact h.valid r hr hrm
      · exact h.store.check_of_has ((hrv r (mem_filter.1 hr).1).2.2 hrm).1
    · obtain ⟨l, hm, hk⟩ := h.ledger
      have hf : isSnapshot = true → s.log = [] := by
        rintro rfl
        have hn : s.started = false := by cases hs : s.started with
          | false => rfl
          | true => exact absurd hs.symm hsr
        rw [State.log, h.first hn]
        rfl
      obtain ⟨l', hm', hk'⟩ := base_kept hm hk hcl hf
      have hcolon : ∀ r ∈ revs, colon ∉ r.tenantSlug := fun r hr => (hrv r hr).1
      exact ⟨_, Refines.entries hm' hcolon hc, by simpa [State.log] using hk'.entries hm' hcolon hc⟩

theorem inv_run (hr : run step init as = some s) (hcl : Along step (fun s a => clean s a = true) init as) :
    Inv s :=
  run_invariant_along Inv (fun _ _ _ h hc hs => h.step hc hs) inv_init hcl hr

/-! ## Queries -/

theorem isRevoked_eq {m : RevocationSnapshot} {l : Map RevocationKey Term} (h : Refines m l) {tenant : GoStr}
    (hcolon : colon ∉ tenant) (jti sub : GoStr) (iat : Int) :
    isRevoked m jti sub tenant iat = ((jti ≠ [] && (l (tenant, .token jti)).isSome) ||
      (sub ≠ [] && (l (tenant, .user sub)).any fun t => decide (iat < t.revokedAt))) := by
  have ht : (m.jtiRevocations jti).any (·.tenantID == tenant) = (l (tenant, .token jti)).isSome := by
    cases hl : l (tenant, .token jti) with
    | some t => simp [h.all tenant jti t hl]
    | none =>
      cases hm : m.jtiRevocations jti with
      | none => rfl
      | some e =>
        have hne : e.tenantID ≠ tenant := fun heq => by
          have := h.tokens jti e hm
          rw [heq, hl] at this
          cases this
        simpa using hne
  have hu : (m.subRevocations (subKey tenant sub)).any (iat < ·.revokedAt) =
      (l (tenant, .user sub)).any fun t => decide (iat < t.revokedAt) := by
    rw [h.users tenant sub hcolon]
    cases l (tenant, .user sub) <;> rfl
  rw [isRevoked, ht, hu]

theorem Inv.target_ne_nil (h : Inv s) {tenant : GoStr} {target : Target} {t : Term}
    (hst : s.Standing tenant target t) : target ≠ .token [] ∧ target ≠ .user [] := by
  obtain ⟨pre, post, hl, -⟩ := hst
  have hm : Write.add (tenant, target) t ∈ s.log := hl ▸ by simp
  obtain ⟨r, hr, hw⟩ := mem_filterMap.1 hm
  have hc := h.valid r hr
  unfold writeOf at hw
  cases hty : r.type with
  | token =>
    cases hrm : r.removed with
    | true => simp [hty, hrm] at hw
    | false =>
      have hok := hc hrm
      simp only [hty, hrm, Bool.false_eq_true, if_false, Option.some.injEq, Write.add.injEq, Prod.mk.injEq] at hw
      obtain ⟨⟨-, rfl⟩, -⟩ := hw
      simp only [Entry.check, TokenRevocation.entry, hty] at hok
      refine ⟨fun heq => ?_, by simp⟩
      rw [Target.token.inj heq] at hok
      split at hok <;> simp at hok
  | user =>
    cases hrm : r.removed with
    | true => simp [hty, hrm] at hw
    | false =>
      have hok := hc hrm
      simp only [hty, hrm, Bool.false_eq_true, if_false, Option.some.injEq, Write.add.injEq, Prod.mk.injEq] at hw
      obtain ⟨⟨-, rfl⟩, -⟩ := hw
      simp only [Entry.check, TokenRevocation.entry, hty] at hok
      refine ⟨by simp, fun heq => ?_⟩
      rw [Target.user.inj heq] at hok
      split at hok <;> simp at hok
  | other name => simp [hty] at hw

section Query
variable {s : State} {tenant : GoStr} (h : Inv s) (hcolon : colon ∉ tenant) (jti sub : GoStr) (iat : Int)
include h hcolon

theorem isRevoked_of_inForce {now : Int} (hn : s.clock ≤ now)
    (hf : (∃ t, s.Standing tenant (.token jti) t ∧ now < t.expiresAt) ∨
      ∃ t, s.Standing tenant (.user sub) t ∧ now < t.expiresAt ∧ iat < t.revokedAt) :
    isRevoked s.snapshot jti sub tenant iat = true := by
  obtain ⟨l, hm, hk⟩ := h.ledger
  rw [isRevoked_eq hm hcolon]
  rcases hf with ⟨t, hst, he⟩ | ⟨t, hst, he, hi⟩
  · obtain ⟨t', hl, -⟩ := hk.covered _ t hst (by omega)
    have hne : jti ≠ [] := fun heq => (h.target_ne_nil hst).1 (heq ▸ rfl)
    simp [hl, hne]
  · obtain ⟨t', hl, hle⟩ := hk.covered _ t hst (by omega)
    have hne : sub ≠ [] := fun heq => (h.target_ne_nil hst).2 (heq ▸ rfl)
    have hlt : iat < t'.revokedAt := lt_of_lt_of_le hi hle.1
    simp [hl, hne, hlt]

theorem standing_of_isRevoked (hr : isRevoked s.snapshot jti sub tenant iat = true) :
    (∃ t, s.Standing tenant (.token jti) t) ∨ ∃ t, s.Standing tenant (.user sub) t ∧ iat < t.revokedAt := by
  obtain ⟨l, hm, hk⟩ := h.ledger
  rw [isRevoked_eq hm hcolon, Bool.or_eq_true, Bool.and_eq_true, Bool.and_eq_true] at hr
  rcases hr with ⟨-, hs⟩ | ⟨-, ha⟩
  · obtain ⟨t, hl⟩ := Option.isSome_iff_exists.1 hs
    exact .inl ⟨t, hk.recorded _ t hl⟩
  · obtain ⟨hl, hlt⟩ := (Option.any_eq_true_iff_get _ _).1 ha
    exact .inr ⟨_, hk.recorded _ _ (Option.some_get hl).symm, of_decide_eq_true hlt⟩

end Query

/-! ## Other tenants -/

/-- What is left of an act without the other tenants: their calls are deleted, and a message is built again, of its entries of
the tenant and of what the smaller store has besides. -/
def rebuilt (tenant : GoStr) (s : State) : Act → Option Act
  | .revoke e => if e.tenantID = tenant then some (.revoke e) else none
  | .prune now => some (.prune now)
  | .deliver isSnapshot sent now revs => some (.deliver isSnapshot sent now
      ((revs.filter fun r => r.tenantSlug == tenant) ++
        (convertRevocationEntries (s.store.snapshot sent)).filter fun r => r ∉ revs))

/-- The run without the other tenants. -/
def runWithout (tenant : GoStr) (s : State) : List Act → Option State
  | [] => some s
  | a :: as => (run step s (rebuilt tenant s a).toList).bind fun s => runWithout tenant s as

def OwnTenant (tenant : GoStr) (m : RevocationSnapshot) : Prop :=
  ∀ jti e, m.jtiRevocations jti = some e → e.tenantID = tenant

/-- The run without the other tenants follows the run with them. -/
structure Follows (tenant : GoStr) (s s' : State) : Prop where
  clock : s'.clock = s.clock
  started : s'.started = s.started
  store : ∀ e, s'.store.has e = true ↔ e.tenantID = tenant ∧ s.store.has e = true
  valid : s'.store.Valid
  own : OwnTenant tenant s'.snapshot
  ledgers : ∃ l l', Refines s.snapshot l ∧ Refines s'.snapshot l' ∧ AgreeOn (fun k => k.1 == tenant) l l'

theorem follows_init (tenant : GoStr) : Follows tenant init init where
  clock := rfl
  started := rfl
  store e := by simp [init, Store.has]
  valid := Store.valid_empty
  own _ _ h := by cases h
  ledgers := ⟨Map.empty, Map.empty, refines_empty, refines_empty, fun _ _ => rfl⟩

section Follow
variable {tenant : GoStr} {m : RevocationSnapshot} {l : Map RevocationKey Term} {now : Int}

theorem OwnTenant.applyDeltaEntry {r : TokenRevocation} (h : OwnTenant tenant m) (hr : r.tenantSlug = tenant) :
    OwnTenant tenant (applyDeltaEntry now m r) := by
  apply deltaEntry_rule (P := fun m _ => OwnTenant tenant m) (l := Map.empty) r h
  · intro _ jti e he
    dsimp only at he
    by_cases hj : jti = r.jti
    · rw [hj, Map.delete_self] at he; cases he
    · rw [Map.delete_of_ne _ hj] at he; exact h jti e he
  · intro _ jti e he
    dsimp only at he
    by_cases hj : jti = r.jti
    · rw [hj, Map.set_self] at he; cases he; exact hr
    · rw [Map.set_of_ne _ _ hj] at he; exact h jti e he
  · exact h
  · exact h

theorem own_entries (now : Int) (hrv : ∀ r ∈ revs, r.tenantSlug = tenant) (hcolon : colon ∉ tenant) (h : OwnTenant tenant m)
    (hm : Refines m l) :
    OwnTenant tenant (revs.foldl (applyDeltaEntry now) m) ∧
      Refines (revs.foldl (applyDeltaEntry now) m) (revs.foldl (ledgerEntry now) l) := by
  induction revs generalizing m l with
  | nil => exact ⟨h, hm⟩
  | cons r rs ih =>
    have hr := hrv r mem_cons_self
    refine ih (fun q hq => hrv q (mem_cons_of_mem r hq)) (h.applyDeltaEntry hr) ?_
    refine hm.applyDeltaEntry (hr ▸ hcolon) fun _ e he => ?_
    rw [h _ e he, hr]

theorem ledgerEntry_fold (revs : List TokenRevocation) :
    revs.foldl (ledgerEntry now) l = writeAll Term.expiresAt now l (revs.filterMap writeOf) := by
  rw [writeAll, foldl_filterMap]
  refine foldl_ext _ _ _ fun l r _ => ?_
  unfold ledgerEntry
  cases writeOf r <;> rfl

theorem writeOf_filter (revs : List TokenRevocation) : (revs.filter fun r => r.tenantSlug == tenant).filterMap writeOf =
      (revs.filterMap writeOf).filter fun w => w.key.1 == tenant := by
  rw [filterMap_filter, filter_filterMap]
  refine filterMap_congr fun r _ => ?_
  cases hw : writeOf r with
  | none => simp
  | some w => by_cases ht : r.tenantSlug = tenant <;> simp [Option.filter, writeOf_key hw, ht]

end Follow

variable {tenant : GoStr}

theorem Follows.deliver {s : State} {sent now : Int} (hcolon : colon ∉ tenant) (h : Follows tenant s s')
    (hcl : clean s (.deliver isSnapshot sent now revs) = true) (hsp : step s (.deliver isSnapshot sent now revs) = some s₁) :
    ∃ s₁', run step s' (rebuilt tenant s' (.deliver isSnapshot sent now revs)).toList = some s₁' ∧ Follows tenant s₁ s₁' := by
  obtain ⟨hst, hcc, hsn, rfl⟩ := step_deliver hsp
  obtain ⟨hrv, hall⟩ := sendable_iff.1 hsn
  have hmn : ∀ r ∈ revs.filter (fun r => r.tenantSlug == tenant), r.tenantSlug = tenant :=
    fun r hr => by simpa using (mem_filter.1 hr).2
  have hent : ∀ e ∈ s'.store.snapshot sent, e.toProto ∈ revs ∧ e.tenantID = tenant := by
    intro e he
    obtain ⟨ht, hh⟩ := (h.store e).1 (h.valid.has_of_mem_snapshot he)
    exact ⟨hall e (Store.mem_snapshot_of_has hh (Store.expiresAt_of_mem_snapshot he)), ht⟩
  -- the smaller store has nothing that the message lacks
  have hnone : (convertRevocationEntries (s'.store.snapshot sent)).filter (fun r => r ∉ revs) = [] := by
    refine filter_eq_nil_iff.2 (forall_mem_map.2 fun e he => ?_)
    simpa using (hent e he).1
  have hs : sendable s' isSnapshot sent (revs.filter fun r => r.tenantSlug == tenant) = true := by
    refine sendable_iff.2 ⟨fun r hr => ?_, fun e he => ?_⟩
    · obtain ⟨hc, hrm, hh⟩ := hrv r (mem_filter.1 hr).1
      exact ⟨hc, hrm, fun h0 => ⟨(h.store _).2 ⟨hmn r hr, (hh h0).1⟩, (hh h0).2⟩⟩
    · exact mem_filter.2 ⟨(hent e he).1, by simpa [Entry.toProto] using (hent e he).2⟩
  simp only [rebuilt, hnone, append_nil, Option.toList_some]
  refine ⟨_, run_cons.2 ⟨_, if_pos ⟨h.started ▸ hst, h.clock ▸ hcc, hs⟩, rfl⟩, ?_⟩
  obtain ⟨l, l', hm, hm', ha⟩ := h.ledgers
  obtain ⟨k, k', hb, hb', hbs, how⟩ : ∃ k k', Refines (base s isSnapshot now) k ∧ Refines (base s' isSnapshot now) k' ∧
      AgreeOn (fun k => k.1 == tenant) k k' ∧ OwnTenant tenant (base s' isSnapshot now) := by
    cases isSnapshot with
    | true => exact ⟨Map.empty, Map.empty, refines_empty, refines_empty, fun _ _ => rfl, fun _ _ he => by cases he⟩
    | false =>
      refine ⟨_, _, hm.dropExpired, hm'.dropExpired, ha.sweep, ?_⟩
      intro jti e he
      exact h.own jti e (Option.filter_eq_some_iff.1 he).1
  have hl := Refines.entries hb (fun r hr => (hrv r hr).1) hcl
  obtain ⟨ho, hrg⟩ := own_entries now hmn hcolon how hb'
  refine ⟨rfl, rfl, h.store, h.valid, ?_, _, (revs.filter fun r => r.tenantSlug == tenant).foldl (ledgerEntry now) k', hl, ?_, ?_⟩
  · simpa only [applyMessage_eq hs] using ho
  · simpa only [applyMessage_eq hs] using hrg
  · rw [ledgerEntry_fold, ledgerEntry_fold, writeOf_filter]
    exact hbs.writeAll _

/-- A stored entry with the key of a clean call is of the tenant that calls. -/
theorem tenantID_of_clean {s : State} {e e' : Entry} (hc : clean s (.revoke e) = true) (hh : s.store.has e' = true)
    (hk : e'.key = e.key) : e'.tenantID = e.tenantID := by
  rw [Store.has, decide_eq_true_iff, hk] at hh
  simpa [clean, hh] using hc

theorem Follows.revoke {s : State} {e : Entry} (h : Follows tenant s s') (hcl : clean s (.revoke e) = true)
    (hst : step s (.revoke e) = some s₁) :
    ∃ s₁', run step s' (rebuilt tenant s' (.revoke e)).toList = some s₁' ∧ Follows tenant s₁ s₁' := by
  simp only [step] at hst
  split at hst
  · cases hst
  rename_i hc
  by_cases ht : e.tenantID = tenant
  · simp only [rebuilt, ht, if_true, Option.toList_some]
    cases hs : s.store.revoke e with
    | error err =>
      rw [hs] at hst
      cases hst
      have hs' : s'.store.revoke e = .error err := by
        unfold Store.revoke at hs ⊢
        split at hs
        · exact hs
        · cases hs
      exact ⟨s', by simp [run, step, hc, hs'], h⟩
    | ok store =>
      rw [hs] at hst
      cases hst
      obtain ⟨store', hs'⟩ : ∃ store', s'.store.revoke e = .ok store' := by
        unfold Store.revoke at hs ⊢
        split at hs
        · cases hs
        exact ⟨_, rfl⟩
      refine ⟨{ s' with store := store' }, by simp [run, step, hc, hs'], h.clock, h.started, fun e' => ?_, h.valid.revoke hs',
        h.own, h.ledgers⟩
      simp only [Store.has_revoke hs, Store.has_revoke hs', h.store e']
      constructor
      · rintro (rfl | ⟨⟨ht', hh⟩, hk⟩)
        · exact ⟨ht, .inl rfl⟩
        · exact ⟨ht', .inr ⟨hh, hk⟩⟩
      · rintro ⟨ht', rfl | ⟨hh, hk⟩⟩
        · exact .inl rfl
        · exact .inr ⟨⟨ht', hh⟩, hk⟩
  · simp only [rebuilt, ht, if_false, Option.toList_none]
    refine ⟨s', rfl, ?_⟩
    cases hs : s.store.revoke e with
    | error err => rw [hs] at hst; cases hst; exact h
    | ok store =>
      rw [hs] at hst
      cases hst
      refine ⟨h.clock, h.started, fun e' => ?_, h.valid, h.own, h.ledgers⟩
      rw [h.store e', Store.has_revoke hs]
      refine and_congr_right fun ht' => ⟨fun hh => .inr ⟨hh, fun hk => ?_⟩, ?_⟩
      · exact ht ((tenantID_of_clean hcl hh hk).symm.trans ht')
      · rintro (rfl | ⟨hh, -⟩)
        · exact absurd ht' ht
        · exact hh

theorem follows_step {s : State} (hcolon : colon ∉ tenant) (h : Follows tenant s s')
    (hc : clean s a = true) (hs : step s a = some s₁) :
    ∃ s₁', run step s' (rebuilt tenant s' a).toList = some s₁' ∧ Follows tenant s₁ s₁' := by
  cases a with
  | revoke e => exact h.revoke hc hs
  | prune now =>
    cases hs
    refine ⟨{ s' with store := s'.store.prune now }, rfl, h.clock, h.started, fun e => ?_, h.valid.prune now, h.own, h.ledgers⟩
    rw [Store.has_prune, Store.has_prune, h.store e, and_assoc]
  | deliver isSnapshot sent now revs => exact h.deliver hcolon hc hs

theorem follows_run {s t : State} (hcolon : colon ∉ tenant) (h : Follows tenant s s')
    (hc : Along step (fun s a => clean s a = true) s as) (hrn : run step s as = some t) :
    ∃ t', runWithout tenant s' as = some t' ∧ Follows tenant t t' := by
  induction as generalizing s s' with
  | nil => cases hrn; exact ⟨s', rfl, h⟩
  | cons a as ih =>
    obtain ⟨s₁, hs, ht⟩ := run_cons.1 hrn
    obtain ⟨hn, hl⟩ := hc
    rw [hs] at hl
    obtain ⟨s₁', hs', hf⟩ := follows_step hcolon h hn hs
    obtain ⟨t', ht', hft⟩ := ih hf hl ht
    exact ⟨t', by rw [runWithout, hs', Option.bind_some, ht'], hft⟩

/-- **Revocations are complete, sound and tenant-independent** while no call and no delivery writes to a `jti` under which another
tenant's revocation stands and no delivery shortens a revocation of its own tenant. -/
theorem revocations_exact {as : List Act} {s : State} (hrun : run step init as = some s)
    (hclean : Along step (fun s a => clean s a = true) init as) {tenant : GoStr} (hcolon : colon ∉ tenant)
    (jti sub : GoStr) (iat now : Int) (hnow : s.clock ≤ now) :
    ((∃ t, s.Standing tenant (.token jti) t ∧ now < t.expiresAt) ∨
        (∃ t, s.Standing tenant (.user sub) t ∧ now < t.expiresAt ∧ iat < t.revokedAt) →
      isRevoked s.snapshot jti sub tenant iat = true) ∧
    (isRevoked s.snapshot jti sub tenant iat = true →
      (∃ t, s.Standing tenant (.token jti) t) ∨ ∃ t, s.Standing tenant (.user sub) t ∧ iat < t.revokedAt) ∧
    ∃ s', runWithout tenant init as = some s' ∧
      isRevoked s'.snapshot jti sub tenant iat = isRevoked s.snapshot jti sub tenant iat := by
  have hinv := inv_run hrun hclean
  refine ⟨isRevoked_of_inForce hinv hcolon jti sub iat hnow, standing_of_isRevoked hinv hcolon jti sub iat, ?_⟩
  obtain ⟨s', hs', hf⟩ := follows_run hcolon (follows_init tenant) hclean hrun
  obtain ⟨l, l', hm, hm', hagree⟩ := hf.ledgers
  have hself : ∀ target : Target, l (tenant, target) = l' (tenant, target) := fun target => hagree _ (by simp)
  refine ⟨s', hs', ?_⟩
  rw [isRevoked_eq hm' hcolon, isRevoked_eq hm hcolon, hself, hself]

def tokenEntry (tenant jti : GoStr) (expiresAt : Int) : Entry := ⟨tenant, .token, [], jti, 5, expiresAt⟩
def userEntry (tenant sub : GoStr) (revokedAt expiresAt : Int) : Entry := ⟨tenant, .user, sub, [], revokedAt, expiresAt⟩

def cleanRun : List Act :=
  [.revoke (tokenEntry (str "acme") (str "t-1") 100),
    .deliver true 9 10 [(tokenEntry (str "acme") (str "t-1") 100).toProto],
    .revoke (userEntry (str "globex") (str "bob") 11 90),
    .deliver false 12 12 [(userEntry (str "globex") (str "bob") 11 90).toProto, (tokenEntry (str "acme") (str "t-1") 100).toProto],
    .revoke (userEntry (str "globex") (str "bob") 20 95), .prune 20,
    .deliver false 21 21 [(userEntry (str "globex") (str "bob") 20 95).toProto, (tokenEntry (str "acme") (str "t-1") 100).toProto]]

theorem revocations_exact_cleanRun : ∃ s, run step init cleanRun = some s ∧
    Along step (fun s a => clean s a = true) init cleanRun ∧ s.clock ≤ 30 ∧
    isRevoked s.snapshot (str "t-1") [] (str "acme") 0 = true ∧
    isRevoked s.snapshot [] (str "bob") (str "globex") 15 = true := by
  refine ⟨_, rfl, by decide, by decide, ?_, ?_⟩
  · refine (@revocations_exact cleanRun _ rfl (by decide) (str "acme") (by decide) (str "t-1") [] 0 30 (by decide)).1 ?_
    exact .inl ⟨⟨0, 100⟩, ⟨[.add _ _, .add _ _, .add _ _, .add _ _], [], rfl, by decide⟩, by decide⟩
  · refine (@revocations_exact cleanRun _ rfl (by decide) (str "globex") (by decide) [] (str "bob") 15 30 (by decide)).1 ?_
    exact .inr ⟨⟨20, 95⟩, ⟨[.add _ _, .add _ _, .add _ _], [.add _ _], rfl, by decide⟩, by decide, by decide⟩

def clashRun : List Act :=
  [.revoke (tokenEntry (str "acme") (str "t-1") 100),
    .deliver true 10 10 [(tokenEntry (str "acme") (str "t-1") 100).toProto],
    .revoke (tokenEntry (str "globex") (str "t-1") 100),
    .deliver false 11 11 [(tokenEntry (str "globex") (str "t-1") 100).toProto]]

/-- **Bug**: a revocation is lost when another tenant revokes a token with the same `jti`. -/
theorem equal_jti_unrevokes : ∃ s s', run step init clashRun = some s ∧ s.clock ≤ 12 ∧
    s.Standing (str "acme") (.token (str "t-1")) ⟨0, 100⟩ ∧
    isRevoked s.snapshot (str "t-1") [] (str "acme") 0 = false ∧
    runWithout (str "acme") init clashRun = some s' ∧
    isRevoked s'.snapshot (str "t-1") [] (str "acme") 0 = true :=
  ⟨_, _, rfl, by decide, ⟨[], [.add _ _], rfl, by decide⟩, by decide, rfl, by decide⟩

end Sukko.Gateway.RevocationState
