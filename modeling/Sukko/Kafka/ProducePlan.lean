import Sukko.Kafka.Record
import Sukko.Provisioning.RuleTransactions
import Sukko.Server.Reconnect
/-
# Where a published message goes

That consumer, broker and producer agree rests on rules that are valid as a set. `New`
(`server/backend/kafkabackend/kafkabackend.go:161`) hands the producer a namespace already trimmed and lowered
(`shared/platform/config.go:145`).
-/

namespace Sukko.Kafka
open List
open Provisioning

/-- See `server/kafka/producer.go:394`. -/
structure ProducePlan where
  ingressTopic : GoStr
  egressTopics : List GoStr
deriving DecidableEq

/-- The four errors of `resolveTargets`. -/
inductive ResolveErr
  | providerNotConfigured
  | notYetSynced
  | noRoutingRules
  | noMatchingRoute (channel : GoStr)
deriving DecidableEq

/-- The plan of a matching rule (`producer.go:507-539`). -/
def planOf (topicNamespace tenant : GoStr) (rule : RoutingRule) : ProducePlan :=
  let delivery := buildTopicName topicNamespace tenant rule.ingressTopic
  let suffixes := rule.egressTopics.filter fun suffix =>
    suffix ≠ [] ∧ suffix ≠ defaultTopicSuffix ∧ suffix ≠ deadLetterTopicSuffix
  { ingressTopic := delivery
    egressTopics := ((suffixes.map (buildTopicName topicNamespace tenant)).filter (· ≠ delivery)).eraseDups }

def resolveRule (topicNamespace channel tenant : GoStr) (rule : RoutingRule) : Option ProducePlan :=
  match Routing.matchRoutingPattern rule.pattern channel with
  | .error _ | .ok false => none
  | .ok true => if rule.ingressTopic = [] then none else some (planOf topicNamespace tenant rule)

/-- See `producer.go:472`. -/
def resolveTargets (rulesProvider : Option ProvApi.Provider) (topicNamespace channel tenant : GoStr) :
    Except ResolveErr ProducePlan :=
  match rulesProvider with
  | none => .error .providerNotConfigured
  | some p =>
    if !p.snapshotReceived then .error .notYetSynced
    else
      match p.getRoutingSnapshot tenant with
      | none | some [] => .error .noRoutingRules
      | some rules =>
        match rules.findSome? (resolveRule topicNamespace channel tenant) with
        | some plan => .ok plan
        | none => .error (.noMatchingRoute channel)

variable {tenant topicNamespace : GoStr} {rules : List RoutingRule} {rule : RoutingRule}

theorem buildTopicName_inj {a b : GoStr} (h : buildTopicName topicNamespace tenant a = buildTopicName topicNamespace tenant b) :
    a = b := by
  have ht := append_cancel_left h
  exact (List.cons.inj ht).2

variable {channel : GoStr} {plan : ProducePlan}

theorem resolveRule_eq_some (h : resolveRule topicNamespace channel tenant rule = some plan) :
    rule.ingressTopic ≠ [] ∧ plan = planOf topicNamespace tenant rule := by
  unfold resolveRule at h
  split at h
  · cases h
  · cases h
  split at h
  · cases h
  rename_i hne
  exact ⟨hne, (Option.some.inj h).symm⟩

theorem resolveTargets_eq_ok {p : ProvApi.Provider} (hs : p.getRoutingSnapshot tenant = some rules)
    (h : resolveTargets (some p) topicNamespace channel tenant = .ok plan) :
    ∃ rule ∈ rules, rule.ingressTopic ≠ [] ∧ plan = planOf topicNamespace tenant rule := by
  unfold resolveTargets at h
  simp only [hs] at h
  split at h
  · cases h
  split at h
  · cases h
  · cases h
  rename_i heq
  cases Option.some.inj heq
  split at h
  · rename_i hf
    cases Except.ok.inj h
    obtain ⟨rule, hr, hp⟩ := exists_of_findSome?_eq_some hf
    exact ⟨rule, hr, resolveRule_eq_some hp⟩
  · cases h

theorem mem_planOf {topic : GoStr} (h : topic ∈ (planOf topicNamespace tenant rule).egressTopics) :
    ∃ suffix ∈ rule.egressTopics, topic = buildTopicName topicNamespace tenant suffix := by
  simp only [planOf, mem_eraseDups, mem_filter, mem_map] at h
  obtain ⟨⟨suffix, ⟨hm, -⟩, rfl⟩, -⟩ := h
  exact ⟨suffix, hm, rfl⟩

/-- **One copy of a message is consumed**, for every rule set that additions, replacements and deletions can leave. -/
theorem publishedMessage_consumed_once (limits : RuleTx.Limits) (as : List RuleTx.Act) (s : RuleTx.State)
    (hrun : Steps.run (RuleTx.step limits) RuleTx.State.start as = some s) (tenantID topicNamespace tenant channel : GoStr)
    (p : ProvApi.Provider) (hsnap : p.getRoutingSnapshot tenant = some (s.getAll tenantID)) (plan : ProducePlan)
    (hplan : resolveTargets (some p) topicNamespace channel tenant = .ok plan) :
    (∃ suffix ∈ consumeTopicSuffixes (s.getAll tenantID), plan.ingressTopic = buildTopicName topicNamespace tenant suffix) ∧
      ∀ topic ∈ plan.egressTopics,
        (∀ suffix ∈ consumeTopicSuffixes (s.getAll tenantID), topic ≠ buildTopicName topicNamespace tenant suffix) ∧
        ∃ suffix ∈ createOnlyTopicSuffixes (s.getAll tenantID), topic = buildTopicName topicNamespace tenant suffix := by
  obtain ⟨hrules, hdisjoint⟩ := RuleTx.getAll_valid hrun tenantID
  obtain ⟨rule, hrule, hingress, rfl⟩ := resolveTargets_eq_ok hsnap hplan
  refine ⟨⟨rule.ingressTopic, mem_consumeTopicSuffixes.2 (.inr ⟨hingress, rule, hrule, rfl⟩), rfl⟩, fun topic htopic => ?_⟩
  obtain ⟨e, he, rfl⟩ := mem_planOf htopic
  obtain ⟨hne, hdefault⟩ := (hrules rule hrule).2 e he
  have hnot := hdisjoint.not_consumed hrule he hdefault
  refine ⟨fun suffix hsuffix hname => hnot ?_, e, mem_createOnlyTopicSuffixes.2 ⟨⟨rule, hrule, he⟩, hne, hnot⟩, rfl⟩
  rw [buildTopicName_inj hname]
  exact hsuffix

def overlappingAdds : List RuleTx.Act :=
  let acme := str "uuid-acme"
  let trade : RoutingRule := ⟨str "acme.trade", str "trade", [str "audit"], 1⟩
  let audit : RoutingRule := ⟨str "acme.audit", str "audit", [], 2⟩
  let news : RoutingRule := ⟨str "acme.news", str "news", [str "archive"], 3⟩
  [.addRoutingRule 0 acme trade, .count 0, .precheck 0, .addRoutingRule 1 acme audit, .count 1, .precheck 1,
    .lock 0, .reread 0, .insert 0, .commit 0, .lock 1, .reread 1,
    .replaceRoutingRules 2 acme [news, trade], .deleteRoutingRules 3 acme, .lock 2, .deleteRows 2, .insert 2, .insert 2,
    .commit 2, .deleted 3]

theorem publishedMessage_consumed_once_overlappingAdds :
    ∃ s p plan, Steps.run (RuleTx.step ⟨100, 5⟩) RuleTx.State.start overlappingAdds = some s ∧
      ProvApi.Provider.getRoutingSnapshot p (str "acme") = some (s.getAll (str "uuid-acme")) ∧
      resolveTargets (some p) (str "prod") (str "acme.trade") (str "acme") = .ok plan ∧
      plan = ⟨str "prod.acme.trade", [str "prod.acme.audit"]⟩ ∧
      ∃ suffix ∈ consumeTopicSuffixes (s.getAll (str "uuid-acme")),
        plan.ingressTopic = buildTopicName (str "prod") (str "acme") suffix := by
  let provider (rules : List RoutingRule) : ProvApi.Provider :=
    { ProvApi.Provider.empty with snapshotReceived := true, routingSnapshots := fun _ => some rules }
  have hend : (Steps.run (RuleTx.step ⟨100, 5⟩) RuleTx.State.start overlappingAdds).map
      (fun s => resolveTargets (some (provider (s.getAll (str "uuid-acme")))) (str "prod") (str "acme.trade") (str "acme")) =
      some (.ok ⟨str "prod.acme.trade", [str "prod.acme.audit"]⟩) := by decide +kernel
  obtain ⟨s, hrun, hplan⟩ := Option.map_eq_some_iff.1 hend
  exact ⟨s, provider (s.getAll (str "uuid-acme")), _, hrun, rfl, hplan, rfl,
    (publishedMessage_consumed_once ⟨100, 5⟩ overlappingAdds s hrun (str "uuid-acme") (str "prod") (str "acme")
      (str "acme.trade") _ rfl _ hplan).1⟩

/-! ## Where a replay reads -/

theorem nodup_eraseDups (l : List GoStr) : l.eraseDups.Nodup := by
  induction hn : l.length using Nat.strong_induction_on generalizing l with
  | _ n ih =>
    subst hn
    cases l with
    | nil => simp
    | cons a l =>
      have hl := length_filter_le (fun b => !b == a) l
      rw [eraseDups_cons, nodup_cons, mem_eraseDups]
      exact ⟨by simp, ih _ (by rw [length_cons]; omega) _ rfl⟩

theorem egressTopics_planOf (rule : RoutingRule) : (planOf topicNamespace tenant rule).egressTopics.Nodup ∧
    (planOf topicNamespace tenant rule).ingressTopic ∉ (planOf topicNamespace tenant rule).egressTopics :=
  ⟨nodup_eraseDups _, by simp [planOf]⟩

theorem ingressTopic_of_plan (h : rules.findSome? (resolveRule topicNamespace channel tenant) = some plan) :
    ∃ rule, Server.ingressTopic rules channel = some rule.ingressTopic ∧ plan = planOf topicNamespace tenant rule := by
  induction rules with
  | nil => cases h
  | cons r rs ih =>
    simp only [List.findSome?_cons, resolveRule, Server.ingressTopic, List.find?_cons] at h ih ⊢
    cases hm : Routing.matchRoutingPattern r.pattern channel with
    | error e => simp_all
    | ok matched =>
      cases matched with
      | false => simp_all
      | true =>
        by_cases hi : r.ingressTopic = []
        · simp_all
        · simp only [hm, if_neg hi, Option.some.injEq] at h
          have hne : (r.ingressTopic != []) = true := bne_iff_ne.2 hi
          exact ⟨r, by simp [hne], h.symm⟩

/-- **A replay reads where a publish wrote**: a backend with a consumer resolves the channel to the ingress topic of the plan. -/
theorem channelTopic_of_plan (rulesProvider : Option ProvApi.Provider) (topicNamespace channel tenant : GoStr) (pool : Bool)
    (plan : ProducePlan) (htenant : Server.extractTenant channel = some tenant)
    (hplan : resolveTargets rulesProvider topicNamespace channel tenant = .ok plan) :
    (Server.Backend.kafka topicNamespace pool rulesProvider).channelTopic channel =
        (if pool then some plan.ingressTopic else none) ∧
      plan.egressTopics.Nodup ∧ plan.ingressTopic ∉ plan.egressTopics := by
  unfold resolveTargets at hplan
  split at hplan
  · cases hplan
  rename_i p
  split at hplan
  · cases hplan
  rename_i hsynced
  split at hplan
  · cases hplan
  · cases hplan
  rename_i rules hsnap
  split at hplan
  · rename_i hfind
    cases hplan
    obtain ⟨rule, hingress, rfl⟩ := ingressTopic_of_plan hfind
    refine ⟨?_, egressTopics_planOf rule⟩
    cases pool with
    | false => simp [Server.Backend.channelTopic]
    | true =>
      simp [Server.Backend.channelTopic, hsynced, htenant, hsnap, hingress, planOf]
  · cases hplan

def skippedRules : ProvApi.Provider :=
  { ProvApi.Provider.empty with
    snapshotReceived := true
    routingSnapshots := fun _ => some [⟨str "**.**", str "news", [], 1⟩, ⟨str "acme.*", [], [], 2⟩,
      ⟨str "acme.**", str "trade", ["audit", "trade", "audit", "default"].map str, 3⟩] }

theorem channelTopic_of_plan_skippedRules : resolveTargets (some skippedRules) (str "prod") (str "acme.news") (str "acme") =
        .ok ⟨str "prod.acme.trade", [str "prod.acme.audit"]⟩ ∧
      (Server.Backend.kafka (str "prod") true (some skippedRules)).channelTopic (str "acme.news") =
        some (str "prod.acme.trade") := by
  have hplan : resolveTargets (some skippedRules) (str "prod") (str "acme.news") (str "acme") =
      .ok ⟨str "prod.acme.trade", [str "prod.acme.audit"]⟩ := by decide +kernel
  exact ⟨hplan, (channelTopic_of_plan (some skippedRules) (str "prod") (str "acme.news") (str "acme") true _
    (by decide) hplan).1⟩

theorem channelTopic_none_of_disabled :
    (resolveTargets (some skippedRules) (str "prod") (str "acme.news") (str "acme")).isOk = true ∧
      (Server.Backend.kafka (str "prod") false (some skippedRules)).channelTopic (str "acme.news") = none := by
  decide +kernel

end Sukko.Kafka
