import Sukko.Push.Subscriptions
import Sukko.Lib.Steps
/-
# What a revocation removes from the push table

The gateway sends the `jti` and the issue time, the repository's deletes select by them; the record in between
(`RegisterDevice`) leaves both out.
-/

namespace Sukko.Push
open Auth Gateway Steps List

def Row.RegisteredWith (r : Row) (jti : GoStr) : Prop := ∃ c, r.auth.claims = some c ∧ c.id = jti
def Row.IssuedBefore (r : Row) (t : Int) : Prop := ∃ c iat, r.auth.claims = some c ∧ c.issuedAt = some iat ∧ iat < t

def Targets (e : RevocationEntry) (r : Row) : Prop :=
  match e.type with
  | .token => r.auth.tenantSlug = e.tenantID ∧ r.RegisteredWith e.jti
  | .user => r.auth.tenantSlug = e.tenantID ∧ r.auth.principal = e.sub ∧ r.IssuedBefore e.revokedAt
  | .other _ => False

/-- The revocation removes the subscriptions it is about and no other. -/
def Exact (rows : List Row) (e : RevocationEntry) : Prop := ∀ r ∈ rows, r ∉ handleRevocation rows e ↔ Targets e r

structure Row.OK (r : Row) : Prop where
  tenantID : r.sub.tenantID = r.auth.tenantSlug
  principal : r.sub.principal = r.auth.principal
  jti : r.sub.jti = []
  tokenIAT : r.sub.tokenIAT = zeroTime
  hasJTI : ∀ c, r.auth.claims = some c → c.id ≠ []

/-! ## Rows -/

theorem ok_of_handlePushSubscribe {q : PushRequest} {authRes : AuthResult} {sub : PushSubscription}
    (h : handlePushSubscribe q = .ok (authRes, sub)) (id : Nat) : Row.OK ⟨{ sub with id }, authRes⟩ := by
  obtain ⟨ha, hac⟩ := handlePushSubscribe_ok h
  refine ⟨hac.tenantID, hac.principal, hac.jti, hac.tokenIAT, ?_⟩
  intro c hc
  obtain ⟨had, -⟩ := authenticateRequest_claims ha hc
  exact (admitClaims_ok_iff.1 had).1

theorem mem_handleRevocation {rows : List Row} {e : RevocationEntry} {r : Row} (h : r ∈ handleRevocation rows e) :
    r ∈ rows := by
  unfold handleRevocation deleteByJTI deleteBySub at h
  split at h
  · exact (mem_filter.1 h).1
  · exact (mem_filter.1 h).1
  · exact h

theorem rows_ok_step {s s' : State} {a : Act} (h : ∀ r ∈ s.rows, r.OK) (hs : step s a = some s') : ∀ r ∈ s'.rows, r.OK := by
  cases a with
  | subscribe q =>
    simp only [step] at hs
    split at hs
    · cases hs
      exact h
    · rename_i authRes sub hok
      cases hs
      exact forall_mem_append.2 ⟨h, forall_mem_singleton.2 (ok_of_handlePushSubscribe hok s.next)⟩
  | unsubscribe id tenantID =>
    cases hs
    intro r hr
    exact h r (mem_filter.1 hr).1
  | revocation entry =>
    cases hs
    intro r hr
    exact h r (mem_handleRevocation hr)

theorem rows_ok {as : List Act} {s : State} (hrn : run step State.init as = some s) : ∀ r ∈ s.rows, r.OK := by
  have hin : ∀ r ∈ State.init.rows, r.OK := by
    intro r hr
    cases hr
  exact run_invariant (fun s => ∀ r ∈ s.rows, r.OK) (fun _ _ _ hi hs => rows_ok_step hi hs) hin hrn

/-! ## What is removed -/

theorem not_mem_handleRevocation_iff {rows : List Row} {e : RevocationEntry} {r : Row} (hr : r ∈ rows) (hok : r.OK) :
    r ∉ handleRevocation rows e ↔
      match e.type with
      | .token => r.auth.tenantSlug = e.tenantID ∧ e.jti = []
      | .user => r.auth.tenantSlug = e.tenantID ∧ r.auth.principal = e.sub ∧ zeroTime < e.revokedAt
      | .other _ => False := by
  unfold handleRevocation
  cases hty : e.type with
  | token =>
    simp only [deleteByJTI, mem_filter, hr, true_and, Bool.not_eq_true', Bool.not_eq_false,
      Bool.and_eq_true, beq_iff_eq, hok.tenantID, hok.jti]
    constructor
    · rintro ⟨ht, hj⟩
      exact ⟨ht, hj.symm⟩
    · rintro ⟨ht, hj⟩
      exact ⟨ht, hj.symm⟩
  | user =>
    simp only [deleteBySub, mem_filter, hr, true_and, Bool.not_eq_true', Bool.not_eq_false,
      Bool.and_eq_true, beq_iff_eq, decide_eq_true_iff, hok.tenantID, hok.principal, hok.tokenIAT, and_assoc]
  | other name => simp [hr]

/-- The revocation finds its targets although the rows forgot their tokens. -/
def Harmless (rows : List Row) (e : RevocationEntry) : Prop :=
  match e.type with
  | .token => ∀ r ∈ rows, r.auth.tenantSlug = e.tenantID → e.jti ≠ [] ∧ ¬r.RegisteredWith e.jti
  | .user => ∀ r ∈ rows, r.auth.tenantSlug = e.tenantID → r.auth.principal = e.sub →
      (r.IssuedBefore e.revokedAt ↔ zeroTime < e.revokedAt)
  | .other _ => True

/-- **When a revocation is exact**: of a token, iff no subscription was registered with it; of a user, iff every subscription was
registered with a token issued before it. -/
theorem revocation_exact_iff (as : List Act) (s : State) (e : RevocationEntry)
    (hrun : run step State.init as = some s) : Exact s.rows e ↔ Harmless s.rows e := by
  have hok := rows_ok hrun
  unfold Exact Harmless
  have hremoved : ∀ r ∈ s.rows, (r ∉ handleRevocation s.rows e ↔ Targets e r) ↔ _ := fun r hr =>
    iff_congr (not_mem_handleRevocation_iff hr (hok r hr)) Iff.rfl
  cases hty : e.type with
  | token =>
    refine forall₂_congr fun r hr => (hremoved r hr).trans ?_
    simp only [Targets, hty]
    -- no token of the table has the empty `jti`
    have hjti : e.jti = [] → ¬r.RegisteredWith e.jti := by
      rintro hnil ⟨c, hc, hid⟩
      exact (hok r hr).hasJTI c hc (hid.trans hnil)
    constructor
    · intro h ht
      have hiff : e.jti = [] ↔ r.RegisteredWith e.jti := ⟨fun hj => (h.1 ⟨ht, hj⟩).2, fun hw => (h.2 ⟨ht, hw⟩).2⟩
      have hne : e.jti ≠ [] := fun hj => hjti hj (hiff.1 hj)
      exact ⟨hne, fun hw => hne (hiff.2 hw)⟩
    · intro h
      constructor
      · rintro ⟨ht, hj⟩
        exact absurd hj (h ht).1
      · rintro ⟨ht, hw⟩
        exact absurd hw (h ht).2
  | user =>
    refine forall₂_congr fun r hr => (hremoved r hr).trans ?_
    simp only [Targets, hty]
    constructor
    · intro h ht hp
      exact ⟨fun hb => (h.2 ⟨ht, hp, hb⟩).2.2, fun hz => (h.1 ⟨ht, hp, hz⟩).2.2⟩
    · intro h
      constructor
      · rintro ⟨ht, hp, hz⟩
        exact ⟨ht, hp, (h ht hp).2 hz⟩
      · rintro ⟨ht, hp, hb⟩
        exact ⟨ht, hp, (h ht hp).1 hb⟩
  | other name =>
    refine iff_of_true (fun r hr => (hremoved r hr).2 ?_) trivial
    simp only [Targets, hty]

def twoDevices : List Act :=
  [.subscribe (demoRequest [str "news"] (str "old") (str "acme.news")),
   .subscribe (demoRequest [str "news"] (str "new") (str "acme.news"))]

def revokeUser (at_ : Int) : RevocationEntry := ⟨str "acme", .user, str "user", [], at_, 1000, false⟩
def revokeToken (jti : GoStr) : RevocationEntry := ⟨str "acme", .token, [], jti, 20, 1000, false⟩
def issueTimes (rows : List Row) : List (Option Int) := rows.map fun r => r.auth.claims.bind Claims.issuedAt

theorem issuedBefore_iff {r : Row} {t : Int} : r.IssuedBefore t ↔ (r.auth.claims.bind Claims.issuedAt).any (· < t) = true := by
  unfold Row.IssuedBefore
  simp only [Option.any_eq_true, Option.bind_eq_some_iff, decide_eq_true_iff]
  constructor
  · rintro ⟨c, iat, hc, hi, hlt⟩
    exact ⟨iat, ⟨c, hc, hi⟩, hlt⟩
  · rintro ⟨iat, ⟨c, hc, hi⟩, hlt⟩
    exact ⟨c, iat, hc, hi, hlt⟩

theorem revocation_exact_iff_bothOlder :
    ∃ s, run step State.init twoDevices = some s ∧ s.rows.length = 2 ∧ Exact s.rows (revokeUser 40) := by
  obtain ⟨s, hrun, hval⟩ : ∃ s, run step State.init twoDevices = some s ∧
      (s.rows.length, issueTimes s.rows) = (2, [some 10, some 30]) :=
    Option.map_eq_some_iff.1 (by decide +kernel : (run step State.init twoDevices).map
      (fun s => (s.rows.length, issueTimes s.rows)) = some (2, [some 10, some 30]))
  simp only [Prod.mk.injEq] at hval
  refine ⟨s, hrun, hval.1, (revocation_exact_iff twoDevices s (revokeUser 40) hrun).2 ?_⟩
  intro r hr _ _
  have hmem : r.auth.claims.bind Claims.issuedAt ∈ ([some 10, some 30] : List (Option Int)) := hval.2 ▸ mem_map_of_mem hr
  rw [issuedBefore_iff]
  simp only [mem_cons, not_mem_nil, or_false] at hmem
  rcases hmem with h | h <;> rw [h] <;> decide

/-- **Bug**: the device registered with a revoked token is still there; one registered with a newer token than the user's
revocation is gone. -/
theorem revocation_misses_and_overshoots : ∃ s, run step State.init twoDevices = some s ∧
      (handleRevocation s.rows (revokeToken (str "old"))).map (fun r => r.auth.claims.map Claims.id) =
        [some (str "old"), some (str "new")] ∧
      issueTimes s.rows = [some 10, some 30] ∧ handleRevocation s.rows (revokeUser 20) = [] :=
  exists_run (by decide +kernel)

end Sukko.Push
