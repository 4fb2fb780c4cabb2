import Sukko.Orchestration.ConsumerPool
/-
# Which dedicated consumers run after any number of refreshes

A consumer that runs keeps the topics it was created with, so the pool serves the registry's lists as long as no list changes
the topics of a tenant that has a consumer (`Steady`).
-/

namespace Sukko.Orchestration
open Replica Steps List Option

/-- The dedicated consumers are those the list asks for. -/
structure Pool.ServesListed (p : Pool) (tenants : List TenantTopics) : Prop where
  one : ∀ e ∈ tenants, e.topics ≠ [] →
    ∃ c, p.running.filter (·.tenantID = e.tenantID) = [c] ∧ ∀ t, t ∈ c.topics ↔ t ∈ e.topics
  maps : ∀ topic tenantID,
    p.dedicatedTopics topic = some tenantID ↔ ∃ e ∈ tenants, e.tenantID = tenantID ∧ topic ∈ e.topics
  unlisted : ∀ c ∈ p.running, c.tenantID ∈ tenants.map TenantTopics.tenantID

def Separate (tenants : List TenantTopics) : Prop :=
  (tenants.map TenantTopics.tenantID).Nodup ∧
    ∀ e ∈ tenants, ∀ e' ∈ tenants, e.tenantID ≠ e'.tenantID → ∀ t ∈ e.topics, t ∉ e'.topics

instance (tenants : List TenantTopics) : Decidable (Separate tenants) := inferInstanceAs (Decidable (_ ∧ _))

def Unchanged (p : Pool) (tenants : List TenantTopics) : Prop :=
  ∀ e ∈ tenants, ∀ c ∈ p.dedicatedConsumers e.tenantID,
    (∀ t ∈ c.topics, t ∈ e.topics) ∧ ∀ t ∈ e.topics, t ∈ c.topics

instance (p : Pool) (tenants : List TenantTopics) : Decidable (Unchanged p tenants) :=
  inferInstanceAs (Decidable (∀ e ∈ tenants, ∀ c ∈ p.dedicatedConsumers e.tenantID, _))

/-- A refresh in which consumers start, the list is well formed and no running consumer would need other topics. -/
def Steady (p : Pool) (r : Refresh) : Prop :=
  (∀ e ∈ r.dedicated, r.dedicatedStarts e.tenantID) ∧ Separate r.dedicated ∧ Unchanged p r.dedicated

instance (p : Pool) (r : Refresh) : Decidable (Steady p r) := inferInstanceAs (Decidable (_ ∧ _))

/-! ## What the three records have in common -/

structure Serving (p : Pool) : Prop where
  tenant : ∀ t c, p.dedicatedConsumers t = some c → c.tenantID = t
  running : ∀ c, c ∈ p.running ↔ p.dedicatedConsumers c.tenantID = some c
  once : p.running.Nodup
  topics : ∀ topic t, p.dedicatedTopics topic = some t ↔ ∃ c, p.dedicatedConsumers t = some c ∧ topic ∈ c.topics
  busy : ∀ t c, p.dedicatedConsumers t = some c → c.topics ≠ []

theorem Serving.new : Serving Pool.new where
  tenant := by simp [Pool.new, Map.empty]
  running := by simp [Pool.new, Map.empty]
  once := by simp [Pool.new]
  topics := by simp [Pool.new, Map.empty]
  busy := by simp [Pool.new, Map.empty]

def Current (p : Pool) (tenants : List TenantTopics) : Prop :=
  ∀ t c, p.dedicatedConsumers t = some c → ∃ e ∈ tenants, e.tenantID = t ∧ ∀ topic, topic ∈ c.topics ↔ topic ∈ e.topics

/-! ## Stopping -/

variable {e : TenantTopics} {p q : Pool} {tenants : List TenantTopics} {starts : GoStr → Bool} {r : Refresh}

theorem Serving.stopUnlisted (h : Serving p) (tenants : List TenantTopics) : Serving (p.stopUnlisted tenants) where
  tenant t c hc := by
    simp only [Pool.stopUnlisted] at hc
    split at hc
    · exact h.tenant t c hc
    · simp at hc
  running c := by
    simp only [Pool.stopUnlisted, mem_filter, h.running]
    by_cases ha : c.tenantID ∈ tenants.map TenantTopics.tenantID <;> simp [ha]
  once := h.once.filter _
  topics topic t := by
    simp only [Pool.stopUnlisted]
    rw [filter_eq_some_iff, h.topics]
    by_cases ha : t ∈ tenants.map TenantTopics.tenantID
    · simp [ha]
    · simp only [ha, if_false, isNone_iff_eq_none, decide_false, Bool.false_or]
      constructor
      · rintro ⟨⟨c, hc, _⟩, hn⟩
        simp [hc] at hn
      · simp
  busy t c hc := by
    simp only [Pool.stopUnlisted] at hc
    split at hc
    · exact h.busy t c hc
    · simp at hc

theorem current_stopUnlisted (hun : Unchanged p tenants) : Current (p.stopUnlisted tenants) tenants := by
  intro t c hc
  simp only [Pool.stopUnlisted] at hc
  split at hc
  · next ha =>
    obtain ⟨e, he, rfl⟩ := mem_map.1 ha
    obtain ⟨hs, hsp⟩ := hun e he c hc
    exact ⟨e, he, rfl, fun topic => ⟨hs topic, hsp topic⟩⟩
  · simp at hc

/-! ## Starting -/

theorem Pool.startDedicated_cases (starts : GoStr → Bool) (p : Pool) (e : TenantTopics) : (p.startDedicated starts e = p ∧
        (e.topics ≠ [] → starts e.tenantID = true → (p.dedicatedConsumers e.tenantID).isSome = true)) ∨
      (p.dedicatedConsumers e.tenantID = none ∧ e.topics ≠ [] ∧ p.startDedicated starts e = { p with
          dedicatedConsumers := p.dedicatedConsumers.set e.tenantID ⟨p.created, e.tenantID, e.topics⟩
          dedicatedTopics := p.dedicatedTopics.setAll (e.topics.map fun t => (t, e.tenantID))
          running := p.running ++ [⟨p.created, e.tenantID, e.topics⟩]
          created := p.created + 1 }) := by
  unfold startDedicated
  split
  · next hs => exact .inl ⟨rfl, fun _ _ => hs⟩
  next hs =>
  split
  · next ht => exact .inl ⟨rfl, fun hne => absurd ht hne⟩
  · next ht =>
    split
    · next hst => exact .inl ⟨rfl, fun _ hok => by simp [hok] at hst⟩
    · exact .inr ⟨by simpa using hs, ht, rfl⟩

theorem Current.create (h : Current p tenants) (he : e ∈ tenants) (id : Nat) :
    Current { p with dedicatedConsumers := p.dedicatedConsumers.set e.tenantID ⟨id, e.tenantID, e.topics⟩ } tenants := by
  intro t c hc
  by_cases ht : t = e.tenantID
  · subst ht
    simp only [Map.set_self, Option.some.injEq] at hc
    exact ⟨e, he, rfl, fun topic => by rw [← hc]⟩
  · simp only [Map.set_of_ne _ _ ht] at hc
    exact h t c hc

theorem Serving.create (h : Serving p) (hn : p.dedicatedConsumers e.tenantID = none) (hne : e.topics ≠ [])
    (ho : ∀ t c, p.dedicatedConsumers t = some c → ∀ topic ∈ e.topics, topic ∉ c.topics) :
    Serving { p with
      dedicatedConsumers := p.dedicatedConsumers.set e.tenantID ⟨p.created, e.tenantID, e.topics⟩
      dedicatedTopics := p.dedicatedTopics.setAll (e.topics.map fun t => (t, e.tenantID))
      running := p.running ++ [⟨p.created, e.tenantID, e.topics⟩]
      created := p.created + 1 } where
  tenant t c hc := by
    by_cases ht : t = e.tenantID
    · subst ht
      simp only [Map.set_self, Option.some.injEq] at hc
      rw [← hc]
    · simp only [Map.set_of_ne _ _ ht] at hc
      exact h.tenant t c hc
  running c := by
    rw [mem_append, mem_singleton, h.running]
    by_cases ht : c.tenantID = e.tenantID
    · simp only [ht, hn, Map.set_self, Option.some.injEq, reduceCtorEq, false_or]
      exact eq_comm
    · simp only [Map.set_of_ne _ _ ht]
      constructor
      · rintro (hc | rfl)
        · exact hc
        · exact absurd rfl ht
      · exact .inl
  once := by
    refine h.once.append (nodup_singleton _) ?_
    intro c hold hnw
    have hc : p.dedicatedConsumers e.tenantID = some c := by
      obtain rfl := mem_singleton.1 hnw
      exact (h.running _).1 hold
    simp [hn] at hc
  topics topic t := by
    simp only [Map.setAll_const]
    by_cases ht : t = e.tenantID
    · subst ht
      by_cases hin : topic ∈ e.topics
      · simp [hin, Map.set_self]
      · simp [hin, Map.set_self, h.topics, hn]
    · rw [Map.set_of_ne _ _ ht, ← h.topics]
      by_cases hin : topic ∈ e.topics
      · have hf : p.dedicatedTopics topic ≠ some t := by
          intro hm
          obtain ⟨c, hc, hmm⟩ := (h.topics topic t).1 hm
          exact ho t c hc topic hin hmm
        simp [hin, hf, Ne.symm ht]
      · simp [hin]
  busy t c hc := by
    by_cases ht : t = e.tenantID
    · subst ht
      simp only [Map.set_self, Option.some.injEq] at hc
      rwa [← hc]
    · simp only [Map.set_of_ne _ _ ht] at hc
      exact h.busy t c hc

theorem startDedicated_serving (hsp : Separate tenants) (h : Serving p) (hcr : Current p tenants) (starts : GoStr → Bool)
    (he : e ∈ tenants) : Serving (p.startDedicated starts e) ∧ Current (p.startDedicated starts e) tenants := by
  rcases p.startDedicated_cases starts e with ⟨hs, _⟩ | ⟨hn, hne, hnw⟩
  · rw [hs]
    exact ⟨h, hcr⟩
  · rw [hnw]
    refine ⟨h.create hn hne ?_, hcr.create he p.created⟩
    intro t c hc topic ht hm
    obtain ⟨e', he', rfl, heq⟩ := hcr t c hc
    have ho : e.tenantID ≠ e'.tenantID := by
      intro hs
      rw [← hs, hn] at hc
      simp at hc
    exact hsp.2 e he e' he' ho topic ht ((heq topic).1 hm)

theorem startDedicated_isSome {t : GoStr}
    (h : (p.dedicatedConsumers t).isSome = true ∨ (t = e.tenantID ∧ e.topics ≠ [] ∧ starts e.tenantID = true)) :
    ((p.startDedicated starts e).dedicatedConsumers t).isSome = true := by
  rcases p.startDedicated_cases starts e with ⟨hs, hh⟩ | ⟨_, _, hn⟩
  · rw [hs]
    rcases h with h | ⟨rfl, hne, hok⟩
    · exact h
    · exact hh hne hok
  · rw [hn]
    by_cases ht : t = e.tenantID
    · simp [ht, Map.set_self]
    · simp only [Map.set_of_ne _ _ ht]
      exact h.resolve_right fun hr => ht hr.1

theorem foldl_startDedicated (hsp : Separate tenants) :
    ∀ (es : List TenantTopics) {p : Pool}, (∀ e ∈ es, e ∈ tenants ∧ starts e.tenantID = true) → Serving p → Current p tenants →
      Serving (es.foldl (Pool.startDedicated starts) p) ∧ Current (es.foldl (Pool.startDedicated starts) p) tenants ∧
      ∀ t, ((p.dedicatedConsumers t).isSome = true ∨ ∃ e ∈ es, t = e.tenantID ∧ e.topics ≠ []) →
        ((es.foldl (Pool.startDedicated starts) p).dedicatedConsumers t).isSome = true := by
  intro es
  induction es with
  | nil =>
    intro p _ h hcu
    exact ⟨h, hcu, fun t ht => by simpa using ht⟩
  | cons e es ih =>
    intro p hes h hcu
    obtain ⟨he, hok⟩ := hes e mem_cons_self
    obtain ⟨h', hcr⟩ := startDedicated_serving hsp h hcu starts he
    obtain ⟨hs, hc, hsm⟩ := ih (fun e' he' => hes e' (mem_cons_of_mem e he')) h' hcr
    refine ⟨hs, hc, fun t ht => hsm t ?_⟩
    rcases ht with hold | ⟨e', he', rfl, hne⟩
    · exact .inl (startDedicated_isSome (.inl hold))
    · rcases mem_cons.1 he' with rfl | hl
      · exact .inl (startDedicated_isSome (.inr ⟨rfl, hne, hok⟩))
      · exact .inr ⟨e', hl, rfl, hne⟩

/-! ## Runs of refreshes -/

theorem updateDedicatedConsumers_serving (h : Serving p) (hst : Steady p r) :
    Serving (p.updateDedicatedConsumers r.dedicated r.dedicatedStarts) ∧
      (p.updateDedicatedConsumers r.dedicated r.dedicatedStarts).ServesListed r.dedicated := by
  obtain ⟨hsr, hsp, hun⟩ := hst
  obtain ⟨hs, hcr, hsm⟩ := foldl_startDedicated hsp r.dedicated (fun e he => ⟨he, hsr e he⟩)
    (h.stopUnlisted r.dedicated) (current_stopUnlisted hun)
  change Serving (p.updateDedicatedConsumers r.dedicated r.dedicatedStarts) at hs
  -- the consumer of a listed tenant serves the entry of this tenant, as there is only one
  have hen : ∀ e ∈ r.dedicated, ∀ c,
      (p.updateDedicatedConsumers r.dedicated r.dedicatedStarts).dedicatedConsumers e.tenantID = some c →
      ∀ topic, topic ∈ c.topics ↔ topic ∈ e.topics := by
    intro e he c hc
    obtain ⟨e', he', hid, heq⟩ := hcr e.tenantID c hc
    obtain rfl : e' = e := inj_on_of_nodup_map hsp.1 he' he hid
    exact heq
  have hl : ∀ e ∈ r.dedicated, e.topics ≠ [] → ∃ c,
      (p.updateDedicatedConsumers r.dedicated r.dedicatedStarts).dedicatedConsumers e.tenantID = some c := by
    intro e he hne
    exact isSome_iff_exists.1 (hsm e.tenantID (.inr ⟨e, he, rfl, hne⟩))
  refine ⟨hs, ⟨?_, ?_, ?_⟩⟩
  · intro e he hne
    obtain ⟨c, hc⟩ := hl e he hne
    refine ⟨c, ?_, hen e he c hc⟩
    have hm : ∀ c', c' ∈ (p.updateDedicatedConsumers r.dedicated r.dedicatedStarts).running.filter
        (·.tenantID = e.tenantID) ↔ c' = c := by
      intro c'
      simp only [mem_filter, decide_eq_true_eq, hs.running]
      constructor
      · rintro ⟨hr, hid⟩
        rw [hid, hc] at hr
        exact (Option.some.inj hr).symm
      · rintro rfl
        have hid := hs.tenant _ _ hc
        exact ⟨by rw [hid]; exact hc, hid⟩
    exact perm_singleton.1 ((perm_ext_iff_of_nodup (hs.once.filter _) (nodup_singleton c)).2
      fun c' => by rw [hm, mem_singleton])
  · intro topic tenantID
    rw [hs.topics]
    constructor
    · rintro ⟨c, hc, hm⟩
      obtain ⟨e, he, hid, heq⟩ := hcr tenantID c hc
      exact ⟨e, he, hid, (heq topic).1 hm⟩
    · rintro ⟨e, he, rfl, hm⟩
      obtain ⟨c, hc⟩ := hl e he (ne_nil_of_mem hm)
      exact ⟨c, hc, (hen e he c hc topic).2 hm⟩
  · intro c hc
    obtain ⟨e, he, hid, _⟩ := hcr c.tenantID c ((hs.running c).1 hc)
    exact mem_map.2 ⟨e, he, hid⟩

theorem Serving.congr (h : Serving p) (hc : q.dedicatedConsumers = p.dedicatedConsumers)
    (ht : q.dedicatedTopics = p.dedicatedTopics) (hr : q.running = p.running) : Serving q where
  tenant := by simpa only [hc] using h.tenant
  running := by simpa only [hc, hr] using h.running
  once := by simpa only [hr] using h.once
  topics := by simpa only [hc, ht] using h.topics
  busy := by simpa only [hc] using h.busy

theorem Serving.refreshed (h : Serving p) (hs : Steady p r) (hq : p.refreshed r = some q) :
    Serving q ∧ q.ServesListed r.dedicated := by
  simp only [Pool.refreshed, Pool.refreshTopics] at hq
  cases hu : p.updateSharedConsumer r.shared r.sharedStarts with
  | mk p₁ err =>
    cases err with
    | some e => simp [hu] at hq
    | none =>
      simp only [hu, Option.some.injEq] at hq
      obtain ⟨hc, ht, hr⟩ := p.updateSharedConsumer_dedicated r.shared r.sharedStarts
      simp only [hu] at hc ht hr
      subst hq
      refine updateDedicatedConsumers_serving (h.congr hc ht hr) ⟨hs.1, hs.2.1, ?_⟩
      simpa only [Unchanged, hc] using hs.2.2

/-- **The dedicated consumers and the registry** agree after every refresh, if no list changes the topics of a tenant that has a
consumer. -/
theorem dedicatedConsumers_follow (rs : List Refresh) (r : Refresh) (q : Pool)
    (hsteady : Along Pool.refreshed Steady Pool.new (rs ++ [r]))
    (hrun : run Pool.refreshed Pool.new (rs ++ [r]) = some q) : q.ServesListed r.dedicated := by
  obtain ⟨hbefore, hlast⟩ := along_append.1 hsteady
  rw [run_append] at hrun
  obtain ⟨p, hp, hrest⟩ := bind_eq_some_iff.1 hrun
  have hserving : Serving p := run_invariant_along Serving (fun _ _ _ h hok hs => (h.refreshed hok hs).1) Serving.new hbefore hp
  obtain ⟨q', hq', hend⟩ := run_cons.1 hrest
  cases hend
  exact (hserving.refreshed (hlast p hp).1 hq').2

def dedicatedRefresh (tenants : List TenantTopics) : Refresh := ⟨[], tenants, true, fun _ => true⟩

theorem dedicatedConsumers_follow_joinAndLeave :
    ∃ q, run Pool.refreshed Pool.new ([dedicatedRefresh [⟨str "acme", [str "acme.trade"]⟩],
        dedicatedRefresh [⟨str "acme", [str "acme.trade"]⟩, ⟨str "beta", [str "beta.news", str "beta.trade"]⟩]] ++
        [dedicatedRefresh [⟨str "beta", [str "beta.trade", str "beta.news"]⟩]]) = some q ∧
      q.ServesListed [⟨str "beta", [str "beta.trade", str "beta.news"]⟩] := by
  obtain ⟨q, hq⟩ : ∃ q, run Pool.refreshed Pool.new ([dedicatedRefresh [⟨str "acme", [str "acme.trade"]⟩],
      dedicatedRefresh [⟨str "acme", [str "acme.trade"]⟩, ⟨str "beta", [str "beta.news", str "beta.trade"]⟩]] ++
      [dedicatedRefresh [⟨str "beta", [str "beta.trade", str "beta.news"]⟩]]) = some q :=
    isSome_iff_exists.1 (by decide +kernel)
  exact ⟨q, hq, dedicatedConsumers_follow _ _ q (by decide +kernel) hq⟩

/-- **Bug**: `acme` is listed with one topic and then with two: its consumer keeps the one. -/
theorem grownTenant_keeps_topics : ∃ q, run Pool.refreshed Pool.new [dedicatedRefresh [⟨str "acme", [str "acme.trade"]⟩],
        dedicatedRefresh [⟨str "acme", [str "acme.trade", str "acme.news"]⟩]] = some q ∧
      q.running = [⟨0, str "acme", [str "acme.trade"]⟩] ∧ q.dedicatedTopics (str "acme.news") = none ∧
      ¬ q.ServesListed [⟨str "acme", [str "acme.trade", str "acme.news"]⟩] := by
  have hends : (run Pool.refreshed Pool.new [dedicatedRefresh [⟨str "acme", [str "acme.trade"]⟩],
      dedicatedRefresh [⟨str "acme", [str "acme.trade", str "acme.news"]⟩]]).map
        (fun q => (q.running, q.dedicatedTopics (str "acme.news"))) =
      some ([⟨0, str "acme", [str "acme.trade"]⟩], none) := by decide +kernel
  obtain ⟨q, hrun, hq⟩ := map_eq_some_iff.1 hends
  obtain ⟨hrunning, htopic⟩ := Prod.mk.inj hq
  refine ⟨q, hrun, hrunning, htopic, fun h => ?_⟩
  have hmapped : q.dedicatedTopics (str "acme.news") = some (str "acme") :=
    (h.maps _ _).2 ⟨_, mem_singleton_self _, rfl, by simp⟩
  simp [htopic] at hmapped

end Sukko.Orchestration
