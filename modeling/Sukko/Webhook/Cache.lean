import Sukko.Webhook.Delivery
/-
# The webhook cache of the worker

`WebhookCache` (`webhook/worker/cache.go`): what `RefreshAll` makes of it when refreshes come one by one, and
what a `Refresh` that may join another leaves.
-/

namespace Sukko.WebhookDelivery.Cache
open Steps List

/-! ## Convergence by `RefreshAll` -/

/-- `slug` is `GetSlugByUUID`, empty for a tenant that is gone. -/
structure Db where
  rows : Rows
  slug : GoStr → GoStr
  slug_inj : ∀ t u, slug t = slug u → slug t ≠ [] → t = u

def Db.stored (db : Db) (t : GoStr) : List WebhookRecord := listByTenantForWorker db.rows t

structure WebhookCache where
  records : GoStr → Option (List WebhookRecord)
  slugToUUID : GoStr → Option GoStr

namespace WebhookCache

def get (c : WebhookCache) (t : GoStr) : List WebhookRecord := (c.records t).getD []
def getBySlug (c : WebhookCache) (slug : GoStr) : List WebhookRecord := (c.slugToUUID slug).elim [] c.get

/-- Models `fetchAndStore` (`cache.go:145`) without an error. -/
def fetchAndStore (db : Db) (c : WebhookCache) (t : GoStr) : WebhookCache where
  records := Function.update c.records t (some (db.stored t))
  slugToUUID := fun s =>
    if db.slug t ≠ [] ∧ s = db.slug t then some t else if c.slugToUUID s = some t then none else c.slugToUUID s

/-- Models `RefreshAll` (`cache.go:111`); `ids` is what `TenantIDs` returns, in the order of a Go map. -/
def refreshAll (db : Db) (c : WebhookCache) (ids : List GoStr) : WebhookCache := ids.foldl (fetchAndStore db) c

end WebhookCache

structure State where
  db : Db
  cache : WebhookCache

/-- Webhooks and slugs change in any way, and some of the changes are followed by a refresh. -/
inductive Act
  | change (db : Db)
  | refresh (t : GoStr)

def step (s : State) : Act → Option State
  | .change db => some { s with db := db }
  | .refresh t => some { s with cache := s.cache.fetchAndStore s.db t }

def init (db : Db) : State := ⟨db, fun _ => none, fun _ => none⟩

/-- Slugs lead to tenants of `ids`, and in `done` every tenant has its own slug and no other. -/
structure Indexed (db : Db) (ids done : GoStr → Prop) (c : WebhookCache) : Prop where
  known : ∀ s u, c.slugToUUID s = some u → ids u
  only : ∀ s u, done u → c.slugToUUID s = some u → s = db.slug u
  found : ∀ u, done u → db.slug u ≠ [] → c.slugToUUID (db.slug u) = some u

variable {db : Db} {ids done : GoStr → Prop} {c : WebhookCache} {t : GoStr}

theorem Indexed.fetchAndStore (h : Indexed db ids done c) (ht : ids t) :
    Indexed db ids (fun u => u = t ∨ done u) (c.fetchAndStore db t) := by
  refine ⟨fun s u hs => ?_, fun s u hu hs => ?_, fun u hu hne => ?_⟩
  · simp only [WebhookCache.fetchAndStore] at hs
    split at hs
    · exact Option.some.inj hs ▸ ht
    · split at hs
      · cases hs
      exact h.known s u hs
  · simp only [WebhookCache.fetchAndStore] at hs
    split at hs
    · rename_i hg
      exact Option.some.inj hs ▸ hg.2
    · split at hs
      · cases hs
      rename_i hnt
      rcases hu with rfl | hu
      · exact absurd hs hnt
      · exact h.only s u hu hs
  · simp only [WebhookCache.fetchAndStore]
    by_cases hut : u = t
    · subst hut
      rw [if_pos ⟨hne, rfl⟩]
    · have hf := h.found u (hu.resolve_left hut) hne
      rw [if_neg fun hg => hut (db.slug_inj u t hg.2 hne), if_neg fun he => hut (Option.some.inj (hf.symm.trans he)), hf]

theorem Indexed.refreshAll {l : List GoStr} (h : Indexed db ids done c) (hl : ∀ t ∈ l, ids t) :
    Indexed db ids (fun u => u ∈ l ∨ done u) (c.refreshAll db l) := by
  induction l generalizing c done with
  | nil => simpa [WebhookCache.refreshAll] using h
  | cons t l ih =>
    have h' : Indexed db ids _ (c.refreshAll db (t :: l)) :=
      ih (h.fetchAndStore (hl t mem_cons_self)) fun u hu => hl u (mem_cons_of_mem t hu)
    simpa only [mem_cons, or_assoc, or_comm, or_left_comm] using h'

theorem refreshAll_records (l : List GoStr) (t : GoStr) :
    (c.refreshAll db l).records t = if t ∈ l then some (db.stored t) else c.records t := by
  induction l generalizing c with
  | nil => simp [WebhookCache.refreshAll]
  | cons u l ih =>
    refine ih.trans ?_
    by_cases htl : t ∈ l
    · simp [htl]
    · by_cases htu : t = u <;> simp [htl, htu, WebhookCache.fetchAndStore]

theorem indexed_run {acts : List Act} {s : State} (hr : run step (init db) acts = some s) :
    Indexed s.db (fun u => (s.cache.records u).isSome) (fun _ => False) s.cache := by
  refine run_invariant (fun s => Indexed s.db (fun u => (s.cache.records u).isSome) (fun _ => False) s.cache) ?_ ?_ hr
  · intro s a s' hi hs
    cases a with
    | change db =>
      cases hs
      exact ⟨hi.known, fun _ _ hu => hu.elim, fun _ hu => hu.elim⟩
    | refresh t =>
      cases hs
      refine ⟨fun slug u hu => ?_, fun _ _ hu => hu.elim, fun _ hu => hu.elim⟩
      by_cases hut : u = t
      · simp [hut, WebhookCache.fetchAndStore]
      · have hi' : Indexed s.db (fun u => u = t ∨ (s.cache.records u).isSome) (fun _ => False) s.cache :=
          ⟨fun slug u hu => .inr (hi.known slug u hu), hi.only, hi.found⟩
        have := (hi'.fetchAndStore (.inl rfl)).known slug u hu
        simpa [WebhookCache.fetchAndStore, hut] using this
  · exact ⟨fun _ _ hu => absurd hu (by simp [init]), fun _ _ hu => hu.elim, fun _ hu => hu.elim⟩

/-- **RefreshAll.** After any history, with any messages lost, a `RefreshAll` without errors makes `Get` of a tenant and `GetBySlug`
of its slug right exactly when the tenant is in the cache before, or has no webhooks. -/
theorem refreshAll_exact_iff {acts : List Act} {s : State} {l : List GoStr} (hr : run step (init db) acts = some s)
    (hl : ∀ t, t ∈ l ↔ (s.cache.records t).isSome) (t : GoStr) :
    ((s.cache.refreshAll s.db l).get t = s.db.stored t ↔ t ∈ l ∨ s.db.stored t = []) ∧
    (s.db.slug t ≠ [] →
      ((s.cache.refreshAll s.db l).getBySlug (s.db.slug t) = s.db.stored t ↔ t ∈ l ∨ s.db.stored t = [])) := by
  have hget : ∀ t, (s.cache.refreshAll s.db l).get t = if t ∈ l then s.db.stored t else [] := by
    intro t
    rw [WebhookCache.get, refreshAll_records]
    by_cases ht : t ∈ l
    · simp [ht]
    · have hn : s.cache.records t = none := by simpa using (hl t).not.1 ht
      simp [ht, hn]
  have hix := (indexed_run hr).refreshAll fun t ht => (hl t).1 ht
  refine ⟨?_, fun hne => ?_⟩
  · rw [hget]
    by_cases ht : t ∈ l <;> simp [ht]
  · rw [WebhookCache.getBySlug]
    cases hu : (s.cache.refreshAll s.db l).slugToUUID (s.db.slug t) with
    | none =>
      have ht : t ∉ l := fun ht => by simp [hix.found t (.inl ht) hne] at hu
      simp [ht]
    | some u =>
      have hul : u ∈ l := (hl u).2 (hix.known _ u hu)
      obtain rfl := s.db.slug_inj t u (hix.only _ u (.inl hul) hu) hne
      simp [hget, hul]

def noTenants : Db := ⟨[], fun _ => [], fun _ _ _ h => absurd rfl h⟩

/-- Tenant `t` with the slug `acme` and one webhook. -/
def oneTenant : Db where
  rows := [⟨str "wh_a", str "t", [], [], [], .enabled, 3, 0⟩]
  slug := fun t => if t = str "t" then str "acme" else []
  slug_inj := by
    intro t u he hne
    split_ifs at he hne with ht hu <;> simp_all

/-- The tenant under the slug `acme-eu` and with a second webhook. -/
def renamedTenant : Db where
  rows := ⟨str "wh_b", str "t", [], [], [], .enabled, 3, 0⟩ :: oneTenant.rows
  slug := fun t => if t = str "t" then str "acme-eu" else []
  slug_inj := by
    intro t u he hne
    split_ifs at he hne with ht hu <;> simp_all

/-- The messages about the new slug and the second webhook are lost. -/
theorem refreshAll_exact_refreshed :
    ∃ s, run step (init oneTenant) [.refresh (str "t"), .change renamedTenant] = some s ∧
      s.cache.getBySlug (str "acme-eu") = [] ∧ (s.db.stored (str "t")).length = 2 ∧
      (s.cache.refreshAll s.db [str "t"]).getBySlug (str "acme-eu") = s.db.stored (str "t") := by
  have hr : run step (init oneTenant) [.refresh (str "t"), .change renamedTenant] =
      some ⟨renamedTenant, (init oneTenant).cache.fetchAndStore oneTenant (str "t")⟩ := rfl
  refine ⟨_, hr, by decide, by decide, ((refreshAll_exact_iff hr (fun t => ?_) (str "t")).2 (by decide)).2 (.inl mem_cons_self)⟩
  by_cases ht : t = str "t" <;> simp [ht, WebhookCache.fetchAndStore, init]

/-- **Bug**: a tenant whose first webhook was announced by a lost message is not in the cache, and `RefreshAll` passes over it. -/
theorem new_tenant_stays_unknown :
    ∃ s, run step (init noTenants) [.change oneTenant] = some s ∧ (∀ t, (s.cache.records t).isSome = false) ∧
      (s.cache.refreshAll s.db []).get (str "t") = [] ∧ s.db.stored (str "t") ≠ [] :=
  ⟨_, rfl, fun _ => rfl, rfl, by decide⟩

/-! ## Refreshes that join -/

inductive Flight
  | fetching
  | fetched (read : ℕ)
  | stored
  deriving DecidableEq

/-- `committed` is the value of `commits` when `Refresh` was called; a `late` call joined after the remote read. -/
structure Call where
  committed : ℕ
  late : Bool
  deriving DecidableEq

/-- One tenant. States of its webhooks are numbered by the commits that made them. -/
structure Group where
  commits : ℕ
  cache : ℕ
  flight : Option Flight
  calls : List Call
  returned : List Call

inductive GroupAct
  | commit
  | refresh
  | read
  | store
  | done
  | fail

/-- Models `Refresh` (`cache.go:101`): `singleflight.Group.Do` runs `fetchAndStore` for the first call and lets the others wait. -/
def groupStep (s : Group) : GroupAct → Option Group
  | .commit => some { s with commits := s.commits + 1 }
  | .refresh =>
    match s.flight with
    | none => some { s with flight := some .fetching, calls := [⟨s.commits, false⟩] }
    | some f => some { s with calls := s.calls ++ [⟨s.commits, f ≠ .fetching⟩] }
  | .read => if s.flight = some .fetching then some { s with flight := some (.fetched s.commits) } else none
  | .store =>
    match s.flight with
    | some (.fetched v) => some { s with cache := v, flight := some .stored }
    | _ => none
  | .done =>
    if s.flight = some .stored then some { s with flight := none, calls := [], returned := s.returned ++ s.calls } else none
  | .fail => if s.flight = some .stored ∨ s.flight = none then none else some { s with flight := none, calls := [] }

def idle : Group := ⟨0, 0, none, [], []⟩

/-- What is read is at least as new as the cache and as the commits before the calls that wait for it. -/
def Fresh (s : Group) : Option Flight → Prop
  | some .fetching => ∀ c ∈ s.calls, c.committed ≤ s.commits
  | some (.fetched v) => s.cache ≤ v ∧ v ≤ s.commits ∧ ∀ c ∈ s.calls, c.late = false → c.committed ≤ v
  | some .stored => ∀ c ∈ s.calls, c.late = false → c.committed ≤ s.cache
  | none => True

structure GroupInv (s : Group) : Prop where
  cache : s.cache ≤ s.commits
  flight : Fresh s s.flight
  returned : ∀ c ∈ s.returned, c.late = false → c.committed ≤ s.cache

theorem GroupInv.step {s s' : Group} {a : GroupAct} (h : GroupInv s) (hs : groupStep s a = some s') :
    GroupInv s' ∧ s.cache ≤ s'.cache := by
  obtain ⟨hc, hf, hr⟩ := h
  cases a with simp only [groupStep] at hs
  | commit =>
    cases hs
    refine ⟨⟨Nat.le_succ_of_le hc, ?_, hr⟩, Nat.le_refl _⟩
    cases hfl : s.flight with
    | none => trivial
    | some f =>
      rw [hfl] at hf
      cases f with
      | fetching => exact fun c hm => Nat.le_succ_of_le (hf c hm)
      | fetched v => exact ⟨hf.1, Nat.le_succ_of_le hf.2.1, hf.2.2⟩
      | stored => exact hf
  | refresh =>
    split at hs <;> cases hs
    · refine ⟨⟨hc, fun c hm => ?_, hr⟩, Nat.le_refl _⟩
      obtain rfl := mem_singleton.1 hm
      exact Nat.le_refl _
    · rename_i f hfl
      refine ⟨⟨hc, ?_, hr⟩, Nat.le_refl _⟩
      simp only [hfl, Fresh, forall_mem_append, forall_mem_singleton] at hf ⊢
      cases f with
      | fetching => exact ⟨hf, Nat.le_refl _⟩
      | fetched v => exact ⟨hf.1, hf.2.1, hf.2.2, fun hl => by simp at hl⟩
      | stored => exact ⟨hf, fun hl => by simp at hl⟩
  | read =>
    split at hs <;> cases hs
    rename_i hfl
    rw [hfl] at hf
    exact ⟨⟨hc, ⟨hc, Nat.le_refl _, fun c hm _ => hf c hm⟩, hr⟩, Nat.le_refl _⟩
  | store =>
    split at hs <;> cases hs
    rename_i v hfl
    rw [hfl] at hf
    exact ⟨⟨hf.2.1, hf.2.2, fun c hm hl => Nat.le_trans (hr c hm hl) hf.1⟩, hf.1⟩
  | done =>
    split at hs <;> cases hs
    rename_i hfl
    rw [hfl] at hf
    exact ⟨⟨hc, trivial, forall_mem_append.2 ⟨hr, hf⟩⟩, Nat.le_refl _⟩
  | fail =>
    split at hs <;> cases hs
    exact ⟨⟨hc, trivial, hr⟩, Nat.le_refl _⟩

/-- **Refresh.** In every run the cache never goes back to an older state, and when a call returns that did not join a call which
had read already, the cache holds a state read at or after the last commit before the call. -/
theorem refresh_fresh_of_not_late {acts acts' : List GroupAct} {s t : Group} (hr : run groupStep idle acts = some s)
    (hr' : run groupStep s acts' = some t) :
    s.cache ≤ t.cache ∧ ∀ c ∈ s.returned, c.late = false → c.committed ≤ s.cache := by
  have h0 : GroupInv idle := ⟨Nat.le_refl _, trivial, by simp [idle]⟩
  have h := run_invariant GroupInv (fun _ _ _ hi hs => (hi.step hs).1) h0 hr
  have hle := run_invariant (fun t => GroupInv t ∧ s.cache ≤ t.cache)
    (fun _ _ _ hi hs => ⟨(hi.1.step hs).1, Nat.le_trans hi.2 (hi.1.step hs).2⟩) ⟨h, Nat.le_refl _⟩ hr'
  exact ⟨hle.2, h.returned⟩

theorem refresh_fresh_single :
    ∃ s t, run groupStep idle [.commit, .refresh, .commit, .refresh, .read, .refresh, .store, .done] = some s ∧
      run groupStep s [.commit, .refresh, .read, .fail, .refresh, .read, .store] = some t ∧
      s.returned = [⟨1, false⟩, ⟨2, false⟩, ⟨2, true⟩] ∧ s.cache ≤ t.cache ∧ t.cache = 3 ∧ 2 ≤ s.cache := by
  have hr : run groupStep idle [.commit, .refresh, .commit, .refresh, .read, .refresh, .store, .done] =
      some ⟨2, 2, none, [], [⟨1, false⟩, ⟨2, false⟩, ⟨2, true⟩]⟩ := rfl
  have hr' : run groupStep ⟨2, 2, none, [], [⟨1, false⟩, ⟨2, false⟩, ⟨2, true⟩]⟩
      [.commit, .refresh, .read, .fail, .refresh, .read, .store] =
        some ⟨3, 3, some .stored, [⟨3, false⟩], [⟨1, false⟩, ⟨2, false⟩, ⟨2, true⟩]⟩ := rfl
  obtain ⟨hle, hfresh⟩ := refresh_fresh_of_not_late hr hr'
  exact ⟨_, _, hr, hr', rfl, hle, rfl, hfresh ⟨2, false⟩ (by decide) rfl⟩

/-- **Bug**: a call that joins one whose read is over returns without an error, and the cache lacks the commit before it. -/
theorem joined_refresh_misses_commit :
    ∃ s, run groupStep idle [.refresh, .read, .commit, .refresh, .store, .done] = some s ∧ ⟨1, true⟩ ∈ s.returned ∧
      s.cache < 1 :=
  ⟨_, rfl, by decide, by decide⟩

end Sukko.WebhookDelivery.Cache
