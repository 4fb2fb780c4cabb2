import Sukko.Orchestration.ConsumerPool
/-
# Topics that the broker has deleted

`handleBrokerDeletedTopic` (`server/kafka/consumer.go:1324`) blocks a topic only when `sharedTopics` has it. The consumer knows
a topic before `sharedTopics` does: a report in this gap blocks nothing (`Timely`).
-/

namespace Sukko.Orchestration
open Steps Option Finset

inductive Pc
  | idle
  | planned (topics : List GoStr) (plan : Pool.Plan)
  | created (plan : Pool.Plan)
  | added (plan : Pool.Plan)
  | recorded (plan : Pool.Plan)
  | paused (plan : Pool.Plan)
deriving DecidableEq

structure BlockState where
  pool : Pool
  pc : Pc
  listed : Finset GoStr
  reported : Finset GoStr

inductive BlockAct
  | refresh (topics : List GoStr)
  | advance (starts : Bool)
  | dedicated (tenants : List TenantTopics) (starts : GoStr → Bool)
  | brokerDeleted (shared : Bool) (topic : GoStr)

namespace BlockState

def init : BlockState := ⟨Pool.new, .idle, ∅, ∅⟩

def advance (starts : Bool) (p : Pool) : Pc → Pool × Pc
  | .idle => (p, .idle)
  | .planned topics plan =>
    if p.sharedConsumer = none ∧ plan.newTopics = ∅ ∧ topics ≠ [] then (p, .idle)
    else if p.sharedConsumer = none ∧ plan.newTopics ≠ ∅ then
      if starts then (p.startShared plan.newTopics, .created plan) else (p, .idle)
    else (p.addConsumeTopics plan.toAdd, .added plan)
  | .created plan => (p.publishTopics plan.newTopics, .idle)
  | .added plan => (p.recordAdded plan.toAdd, .recorded plan)
  | .recorded plan => (p.pauseFetchTopics plan.toRemove, .paused plan)
  | .paused plan => (p.recordRemoved plan.toRemove, .idle)

def step (s : BlockState) : BlockAct → Option BlockState
  | .refresh topics =>
    if s.pc = .idle then
      let p := s.pool.unblock topics
      some { pool := p, pc := .planned topics (p.plan topics), listed := topics.toFinset,
             reported := s.reported ∩ topics.toFinset }
    else none
  | .advance starts =>
    if s.pc = .idle then none
    else some { s with pool := (advance starts s.pool s.pc).1, pc := (advance starts s.pool s.pc).2 }
  | .dedicated tenants starts =>
    if s.pc = .idle then some { s with pool := s.pool.updateDedicatedConsumers tenants starts } else none
  | .brokerDeleted shared topic =>
    let p := if shared then s.pool.pauseFetchTopics {topic} else s.pool
    some { s with
      pool := p.handleBrokerDeletedTopic topic
      reported := if topic ∈ s.listed then insert topic s.reported else s.reported }

/-- A report of a listed topic finds it published or blocked. -/
def Timely (s : BlockState) : BlockAct → Prop
  | .brokerDeleted _ topic => topic ∈ s.listed → topic ∈ s.pool.sharedTopics ∨ topic ∈ s.pool.blockedSharedTopics
  | _ => True

instance (s : BlockState) (a : BlockAct) : Decidable (Timely s a) := by
  cases a <;> unfold Timely <;> infer_instance

/-! ## What every statement keeps -/

structure Inv (s : BlockState) : Prop where
  disjoint : Disjoint s.pool.sharedTopics s.pool.blockedSharedTopics
  fresh : s.pool.sharedConsumer = none → s.pool.sharedTopics = ∅
  planned : ∀ topics plan, s.pc = .planned topics plan → s.pool.sharedConsumer = none →
    plan.toAdd ⊆ plan.newTopics ∧ Disjoint plan.newTopics s.pool.blockedSharedTopics
  created : ∀ plan, s.pc = .created plan →
    s.pool.sharedConsumer ≠ none ∧ s.pool.sharedTopics = ∅ ∧ Disjoint plan.newTopics s.pool.blockedSharedTopics
  added : ∀ plan, s.pc = .added plan → s.pool.sharedConsumer = none → plan.toAdd = ∅

theorem Inv.init : Inv init where
  disjoint := by simp [BlockState.init, Pool.new]
  fresh := by simp [BlockState.init, Pool.new]
  planned := by simp [BlockState.init]
  created := by simp [BlockState.init]
  added := by simp [BlockState.init]

variable {s : BlockState}

theorem Inv.refresh (h : Inv s) (topics : List GoStr) (reported : Finset GoStr) :
    Inv ⟨s.pool.unblock topics, .planned topics ((s.pool.unblock topics).plan topics), topics.toFinset, reported⟩ where
  disjoint := h.disjoint.mono_right inter_subset_left
  fresh := h.fresh
  planned := by
    intro _ plan hpc _
    simp only [Pc.planned.injEq] at hpc
    obtain ⟨_, rfl⟩ := hpc
    exact ⟨sdiff_subset, sdiff_disjoint⟩
  created := by simp
  added := by simp

attribute [local simp] BlockState.advance

theorem Inv.advance (h : Inv s) (starts : Bool) :
    Inv { s with pool := (advance starts s.pool s.pc).1, pc := (BlockState.advance starts s.pool s.pc).2 } := by
  cases hpc : s.pc with
  | idle => exact ⟨h.disjoint, h.fresh, by simp, by simp,
      by simp⟩
  | planned topics plan =>
    simp only [BlockState.advance]
    split
    · exact ⟨h.disjoint, h.fresh, by simp, by simp, by simp⟩
    split
    · next hc =>
      have he := h.fresh hc.1
      have hp := (h.planned topics plan hpc hc.1).2
      cases starts with
      | true =>
        refine ⟨h.disjoint, fun _ => he, by simp, fun plan' heq => ?_, by simp⟩
        obtain rfl : plan = plan' := by simpa using heq
        exact ⟨by simp [Pool.startShared], he, hp⟩
      | false => exact ⟨h.disjoint, fun _ => he, by simp, by simp, by simp⟩
    · next hc =>
      refine ⟨h.disjoint, by simpa [Pool.addConsumeTopics] using h.fresh, by simp, by simp, fun plan' heq hn => ?_⟩
      obtain rfl : plan = plan' := by simpa using heq
      have hcn : s.pool.sharedConsumer = none := by simpa [Pool.addConsumeTopics] using hn
      have hnw : plan.newTopics = ∅ := not_not.1 fun hne => hc ⟨hcn, hne⟩
      exact subset_empty.1 (hnw ▸ (h.planned topics plan hpc hcn).1)
  | created plan =>
    obtain ⟨hs, _, hp⟩ := h.created plan hpc
    exact ⟨hp, fun hn => absurd hn hs, by simp, by simp, by simp⟩
  | added plan =>
    -- the section looks again at what is blocked
    refine ⟨?_, fun hn => ?_, by simp, by simp, by simp⟩
    · exact disjoint_union_left.2 ⟨h.disjoint, sdiff_disjoint⟩
    · simp [Pool.recordAdded, h.fresh hn, h.added plan hpc hn]
  | recorded plan =>
    exact ⟨h.disjoint, by simpa [Pool.pauseFetchTopics] using h.fresh, by simp, by simp, by simp⟩
  | paused plan =>
    refine ⟨h.disjoint.mono_left sdiff_subset, fun hn => ?_, by simp, by simp, by simp⟩
    simp [Pool.recordRemoved, h.fresh hn]

theorem Inv.report (h : Inv s) {p : Pool} {topic : GoStr} {reported : Finset GoStr}
    (hc : p.sharedConsumer = none ↔ s.pool.sharedConsumer = none)
    (hp : (p.sharedTopics = s.pool.sharedTopics ∧ p.blockedSharedTopics = s.pool.blockedSharedTopics) ∨
      (topic ∈ s.pool.sharedTopics ∧ p.sharedTopics = s.pool.sharedTopics.erase topic ∧
        p.blockedSharedTopics = insert topic s.pool.blockedSharedTopics)) :
    Inv { s with pool := p, reported := reported } := by
  rcases hp with ⟨ht, hb⟩ | ⟨hm, ht, hb⟩
  · exact ⟨by simpa only [ht, hb] using h.disjoint, by simpa only [hc, ht] using h.fresh,
      by simpa only [hc, hb] using h.planned, by simpa only [ne_eq, hc, ht, hb] using h.created,
      by simpa only [hc] using h.added⟩
  · -- a topic that can be found is published, so the first consumer's topics are
    have hne : s.pool.sharedTopics ≠ ∅ := ne_empty_of_mem hm
    refine ⟨?_, fun hn => absurd (h.fresh (hc.1 hn)) hne, fun _ _ _ hn => absurd (h.fresh (hc.1 hn)) hne,
      fun plan hpc => absurd (h.created plan hpc).2.1 hne, by simpa only [hc] using h.added⟩
    simp only [ht, hb, disjoint_insert_right, mem_erase, ne_eq, not_true_eq_false, false_and,
      not_false_eq_true, true_and]
    exact h.disjoint.mono_left (erase_subset _ _)

theorem handleBrokerDeletedTopic_shared (p : Pool) (topic : GoStr) :
    (p.handleBrokerDeletedTopic topic).sharedConsumer = p.sharedConsumer ∧
      ((topic ∉ p.sharedTopics ∧ (p.handleBrokerDeletedTopic topic).sharedTopics = p.sharedTopics ∧
          (p.handleBrokerDeletedTopic topic).blockedSharedTopics = p.blockedSharedTopics) ∨
        (topic ∈ p.sharedTopics ∧ (p.handleBrokerDeletedTopic topic).sharedTopics = p.sharedTopics.erase topic ∧
          (p.handleBrokerDeletedTopic topic).blockedSharedTopics = insert topic p.blockedSharedTopics)) := by
  unfold Pool.handleBrokerDeletedTopic
  split
  · next hm => exact ⟨rfl, .inr ⟨hm, rfl, rfl⟩⟩
  · next hm => exact ⟨rfl, .inl ⟨hm, rfl, rfl⟩⟩

theorem pauseFetchTopics_none (p : Pool) (topics : Finset GoStr) :
    (p.pauseFetchTopics topics).sharedConsumer = none ↔ p.sharedConsumer = none := by
  simp [Pool.pauseFetchTopics]

theorem Inv.step {s s' : BlockState} (h : Inv s) {a : BlockAct} (hs : step s a = some s') : Inv s' := by
  cases a with
  | refresh topics =>
    simp only [BlockState.step, guarded] at hs
    obtain ⟨_, rfl⟩ := hs
    exact h.refresh topics _
  | advance starts =>
    simp only [BlockState.step, ite_none_left_eq_some, Option.some.injEq] at hs
    obtain ⟨_, rfl⟩ := hs
    exact h.advance starts
  | dedicated tenants starts =>
    simp only [BlockState.step, guarded] at hs
    obtain ⟨_, rfl⟩ := hs
    obtain ⟨hc, ht, hb⟩ := s.pool.updateDedicatedConsumers_shared tenants starts
    exact h.report (by rw [hc]) (.inl ⟨ht, hb⟩ : _ ∨ ([] : GoStr) ∈ _ ∧ _)
  | brokerDeleted shared topic =>
    simp only [BlockState.step] at hs
    cases hs
    cases shared with
    | false =>
      obtain ⟨hc, hcs⟩ := handleBrokerDeletedTopic_shared s.pool topic
      exact h.report (by rw [← hc]; rfl) (hcs.imp And.right id)
    | true =>
      obtain ⟨hc, hcs⟩ := handleBrokerDeletedTopic_shared (s.pool.pauseFetchTopics {topic}) topic
      exact h.report (by rw [← pauseFetchTopics_none s.pool {topic}, ← hc]; rfl) (hcs.imp And.right id)

theorem advance_blocked (starts : Bool) (p : Pool) (pc : Pc) :
    (advance starts p pc).1.blockedSharedTopics = p.blockedSharedTopics := by
  cases pc with
  | planned topics plan =>
    simp only [advance]
    split
    · rfl
    · split
      · split <;> rfl
      · rfl
  | _ => rfl

theorem reported_blocked {s s' : BlockState} (h : s.reported ⊆ s.pool.blockedSharedTopics) {a : BlockAct}
    (htm : Timely s a) (hs : step s a = some s') : s'.reported ⊆ s'.pool.blockedSharedTopics := by
  cases a with
  | refresh topics =>
    simp only [BlockState.step, guarded] at hs
    obtain ⟨_, rfl⟩ := hs
    exact inter_subset_inter_right h
  | advance starts =>
    simp only [BlockState.step, ite_none_left_eq_some, Option.some.injEq] at hs
    obtain ⟨_, rfl⟩ := hs
    exact h.trans (advance_blocked starts s.pool s.pc).symm.subset
  | dedicated tenants starts =>
    simp only [BlockState.step, guarded] at hs
    obtain ⟨_, rfl⟩ := hs
    obtain ⟨_, _, hb⟩ := s.pool.updateDedicatedConsumers_shared tenants starts
    exact h.trans hb.symm.subset
  | brokerDeleted shared topic =>
    simp only [BlockState.step] at hs
    cases hs
    have hp : (if shared then s.pool.pauseFetchTopics {topic} else s.pool).sharedTopics = s.pool.sharedTopics ∧
        (if shared then s.pool.pauseFetchTopics {topic} else s.pool).blockedSharedTopics = s.pool.blockedSharedTopics := by
      cases shared <;> exact ⟨rfl, rfl⟩
    intro t ht
    have hc : t = topic ∧ topic ∈ s.listed ∨ t ∈ s.reported := by
      simp only at ht
      split at ht
      · next hl => exact (mem_insert.1 ht).imp (⟨·, hl⟩) id
      · exact .inr ht
    obtain ⟨_, ⟨hn, _, hb⟩ | ⟨_, _, hb⟩⟩ := handleBrokerDeletedTopic_shared
      (if shared then s.pool.pauseFetchTopics {topic} else s.pool) topic
    · rw [hp.1] at hn
      rw [hb, hp.2]
      rcases hc with ⟨rfl, hl⟩ | hold
      · exact (htm hl).resolve_left hn
      · exact h hold
    · rw [hb, hp.2]
      rcases hc with ⟨rfl, _⟩ | hold
      · exact mem_insert_self _ _
      · exact mem_insert_of_mem (h hold)

/-- **Deleted topics stay blocked** until a refresh omits them, in every run in which each report of a listed topic finds it
published or blocked. -/
theorem brokerDeleted_stays_blocked (as : List BlockAct) (s : BlockState) (hrun : run step init as = some s) :
    Disjoint s.pool.sharedTopics s.pool.blockedSharedTopics ∧
      (Along step Timely init as → ∀ t ∈ s.reported, t ∉ s.pool.sharedTopics) := by
  have hinv : Inv s := run_invariant Inv (fun _ _ _ h hs => h.step hs) Inv.init hrun
  refine ⟨hinv.disjoint, fun htimely t ht hshared => ?_⟩
  have hblocked : s.reported ⊆ s.pool.blockedSharedTopics :=
    run_invariant_along (fun s => s.reported ⊆ s.pool.blockedSharedTopics)
      (fun _ _ _ h hok hs => reported_blocked h hok hs) (empty_subset _) htimely hrun
  exact disjoint_left.1 hinv.disjoint hshared (hblocked ht)

theorem brokerDeleted_stays_blocked_relisted :
    ∃ s, run step init [.refresh [str "acme"], .advance true, .advance true, .brokerDeleted true (str "acme"),
        .refresh [str "acme", str "beta"], .brokerDeleted true (str "acme"), .advance true, .advance true] = some s ∧
      s.reported = {str "acme"} ∧ ∀ t ∈ s.reported, t ∉ s.pool.sharedTopics := by
  have hends : (run step init [.refresh [str "acme"], .advance true, .advance true, .brokerDeleted true (str "acme"),
      .refresh [str "acme", str "beta"], .brokerDeleted true (str "acme"), .advance true, .advance true]).map
        BlockState.reported = some {str "acme"} := by decide +kernel
  obtain ⟨s, hrun, hreported⟩ := map_eq_some_iff.1 hends
  exact ⟨s, hrun, hreported, (brokerDeleted_stays_blocked _ s hrun).2 (by decide +kernel)⟩

/-- **Bug**: the first consumer reports `acme` before `sharedTopics` is set. The report blocks nothing, and the next section
publishes `acme`. -/
theorem earlyReport_published : (run step init [.refresh [str "acme"], .advance true, .brokerDeleted true (str "acme")]).map
        (fun s => (s.pool.sharedConsumer.map SharedConsumer.consumed, s.reported, s.pool.blockedSharedTopics)) =
      some (some {str "acme"}, {str "acme"}, ∅) ∧
    (run step init [.refresh [str "acme"], .advance true, .brokerDeleted true (str "acme"), .advance true]).map
        (fun s => (s.reported, s.pool.sharedTopics)) = some ({str "acme"}, {str "acme"}) := by
  decide +kernel

end BlockState
end Sukko.Orchestration
