import Sukko.Provisioning.Store
/-
# Validation of topic routing rules
-/

namespace Sukko.Provisioning
open List

def defaultTopicSuffix : GoStr := str "default"
def deadLetterTopicSuffix : GoStr := str "dead-letter"

inductive PatternProblem
  | tooLong
  | invalidSegment (seg : GoStr)
  | wildcards (e : Routing.PatternErr)
deriving DecidableEq

inductive RuleErr
  | emptyRoutingPattern
  | missingIngressTopic
  | reservedIngressTopic (suffix : GoStr)
  | tooManyTopics (got : Nat) (max : Int)
  | emptyEgressTopic
  | reservedEgressTopic (suffix : GoStr)
  | egressIngressOverlap (suffix : GoStr)
  | duplicateEgressTopic (suffix : GoStr)
  | duplicateRoutingPattern (pattern : GoStr)
  | duplicatePriority (priority : Int)
  | invalidRoutingPattern (problem : PatternProblem)
deriving DecidableEq

inductive RoutingErr
  | emptyRoutingRules
  | tooManyRoutingRules (got : Nat) (max : Int)
  | rule (i : Nat) (e : RuleErr)
  | egressIngressOverlap (suffix : GoStr)
deriving DecidableEq

def validateEgressTopics (ingressTopic : GoStr) : List GoStr → List GoStr → Except RuleErr Unit
  | _, [] => .ok ()
  | seen, suffix :: rest =>
    if suffix = [] then .error .emptyEgressTopic
    else if suffix = defaultTopicSuffix ∨ suffix = deadLetterTopicSuffix then .error (.reservedEgressTopic suffix)
    else if suffix = ingressTopic then .error (.egressIngressOverlap suffix)
    else if suffix ∈ seen then .error (.duplicateEgressTopic suffix)
    else validateEgressTopics ingressTopic (suffix :: seen) rest

/-- See `provisioning/topic_routing.go:131`. -/
def validateRuleTopics (rule : RoutingRule) (maxTopicsPerRule : Int) : Except RuleErr Unit :=
  if rule.ingressTopic = [] then .error .missingIngressTopic
  else if rule.ingressTopic = deadLetterTopicSuffix then .error (.reservedIngressTopic rule.ingressTopic)
  else if 0 < maxTopicsPerRule ∧ maxTopicsPerRule < (1 + rule.egressTopics.length : Nat) then
    .error (.tooManyTopics (1 + rule.egressTopics.length) maxTopicsPerRule)
  else validateEgressTopics rule.ingressTopic [] rule.egressTopics

def literalSegment (seg : GoStr) : Bool :=
  seg ≠ [] ∧ seg.all fun b => (97 ≤ b ∧ b ≤ 122) ∨ (48 ≤ b ∧ b ≤ 57) ∨ b = 45

def readable (pattern : GoStr) : Except Routing.PatternErr Bool :=
  Routing.matchRoutingPattern (Routing.normalizePattern pattern) (str "probe")

/-- See `provisioning/topic_routing.go:191`. -/
def validateRoutingPattern (pattern : GoStr) : Except RuleErr Unit :=
  if 256 < pattern.length then .error (.invalidRoutingPattern .tooLong)
  else
    match (pattern.split GoStr.dot).find? fun seg => !(seg == Routing.star || seg == Routing.doubleStar || literalSegment seg) with
    | some seg => .error (.invalidRoutingPattern (.invalidSegment seg))
    | none =>
      match readable pattern with
      | .error e => .error (.invalidRoutingPattern (.wildcards e))
      | .ok _ => .ok ()

/-- See `provisioning/topic_routing.go:172`. -/
def validateEgressDisjoint (rules : List RoutingRule) : Except RoutingErr Unit :=
  match (rules.flatMap RoutingRule.egressTopics).find? (· ∈ rules.map RoutingRule.ingressTopic) with
  | some suffix => .error (.egressIngressOverlap suffix)
  | none => .ok ()

def validateRule (maxTopicsPerRule : Int) (seenPatterns : List GoStr) (seenPriorities : List Int) (rule : RoutingRule) :
    Except RuleErr Unit :=
  if rule.pattern = [] then .error .emptyRoutingPattern
  else
    match validateRuleTopics rule maxTopicsPerRule with
    | .error e => .error e
    | .ok () =>
      if rule.pattern ∈ seenPatterns then .error (.duplicateRoutingPattern rule.pattern)
      else if rule.priority ∈ seenPriorities then .error (.duplicatePriority rule.priority)
      else validateRoutingPattern rule.pattern

def validateEach (maxTopicsPerRule : Int) : Nat → List GoStr → List Int → List RoutingRule → Except RoutingErr Unit
  | _, _, _, [] => .ok ()
  | i, patterns, priorities, rule :: rest =>
    match validateRule maxTopicsPerRule patterns priorities rule with
    | .error e => .error (.rule i e)
    | .ok () => validateEach maxTopicsPerRule (i + 1) (rule.pattern :: patterns) (rule.priority :: priorities) rest

/-- See `provisioning/topic_routing.go:91`. -/
def validateRoutingRules (rules : List RoutingRule) (maxRules maxTopicsPerRule : Int) : Except RoutingErr Unit :=
  if rules = [] then .error .emptyRoutingRules
  else if 0 < maxRules ∧ maxRules < rules.length then .error (.tooManyRoutingRules rules.length maxRules)
  else do
    validateEach maxTopicsPerRule 0 [] [] rules
    validateEgressDisjoint rules

def consumeTopicSuffixes (rules : List RoutingRule) : List GoStr :=
  (defaultTopicSuffix :: (rules.map RoutingRule.ingressTopic).filter (· ≠ [])).eraseDups

/-- See `provisioning/topic_routing.go:242`. -/
def createOnlyTopicSuffixes (rules : List RoutingRule) : List GoStr :=
  ((rules.flatMap RoutingRule.egressTopics).filter fun suffix =>
    suffix ≠ [] ∧ suffix ∉ consumeTopicSuffixes rules).eraseDups

/-! ## What validation establishes -/

structure RuleOk (r : RoutingRule) : Prop where
  ingress : r.ingressTopic ≠ []
  egress : ∀ e ∈ r.egressTopics, e ≠ [] ∧ e ≠ defaultTopicSuffix ∧ e ≠ deadLetterTopicSuffix
  readable : ∃ b, readable r.pattern = .ok b

def EgressDisjoint (rules : List RoutingRule) : Prop :=
  ∀ r ∈ rules, ∀ e ∈ r.egressTopics, ∀ r' ∈ rules, e ≠ r'.ingressTopic

variable {maxTopicsPerRule : Int} {rules rules' : List RoutingRule} {patterns : List GoStr} {priorities : List Int}
  {rule r : RoutingRule} {suffix : GoStr}

theorem EgressDisjoint.of_subset (h : EgressDisjoint rules) (hs : rules' ⊆ rules) : EgressDisjoint rules' :=
  fun r hr e he r' hr' => h r (hs hr) e he r' (hs hr')

theorem EgressDisjoint.of_topics (h : EgressDisjoint rules)
    (hs : ∀ r' ∈ rules', ∃ r ∈ rules, r.ingressTopic = r'.ingressTopic ∧ r.egressTopics = r'.egressTopics) :
    EgressDisjoint rules' := by
  intro r' hr' e he q' hq'
  obtain ⟨r, hr, -, heg⟩ := hs r' hr'
  obtain ⟨q, hq, hi, -⟩ := hs q' hq'
  rw [← hi]
  exact h r hr e (heg ▸ he) q hq

theorem validateEgressDisjoint_eq_ok : validateEgressDisjoint rules = .ok () ↔ EgressDisjoint rules := by
  cases hf : (rules.flatMap RoutingRule.egressTopics).find? (· ∈ rules.map RoutingRule.ingressTopic) with
  | some suffix =>
    simp only [validateEgressDisjoint, hf, reduceCtorEq, false_iff]
    intro hd
    obtain ⟨r, hr, he⟩ := mem_flatMap.1 (mem_of_find?_eq_some hf)
    have hc := List.find?_some hf
    obtain ⟨r', hr', hi⟩ := mem_map.1 (of_decide_eq_true hc)
    exact hd r hr suffix he r' hr' hi.symm
  | none =>
    simp only [validateEgressDisjoint, hf, true_iff]
    intro r hr e he r' hr' hi
    have hn := List.find?_eq_none.1 hf e (mem_flatMap.2 ⟨r, hr, he⟩)
    exact hn (decide_eq_true (mem_map.2 ⟨r', hr', hi.symm⟩))

theorem validateEgressTopics_ok {ingressTopic : GoStr} {seen egress : List GoStr}
    (h : validateEgressTopics ingressTopic seen egress = .ok ()) :
    ∀ e ∈ egress, e ≠ [] ∧ e ≠ defaultTopicSuffix ∧ e ≠ deadLetterTopicSuffix := by
  induction egress generalizing seen with
  | nil => simp
  | cons suffix rest ih =>
    unfold validateEgressTopics at h
    split at h
    · cases h
    rename_i hem
    split at h
    · cases h
    rename_i hr
    split at h
    · cases h
    split at h
    · cases h
    exact forall_mem_cons.2 ⟨⟨hem, fun hd => hr (.inl hd), fun hd => hr (.inr hd)⟩, ih h⟩

theorem validateRuleTopics_ok (h : validateRuleTopics rule maxTopicsPerRule = .ok ()) :
    rule.ingressTopic ≠ [] ∧ ∀ e ∈ rule.egressTopics, e ≠ [] ∧ e ≠ defaultTopicSuffix ∧ e ≠ deadLetterTopicSuffix := by
  unfold validateRuleTopics at h
  split at h
  · cases h
  rename_i hi
  split at h
  · cases h
  split at h
  · cases h
  exact ⟨hi, validateEgressTopics_ok h⟩

theorem validateRoutingPattern_ok {pattern : GoStr} (h : validateRoutingPattern pattern = .ok ()) :
    ∃ b, readable pattern = .ok b := by
  unfold validateRoutingPattern at h
  split at h
  · cases h
  split at h
  · cases h
  split at h
  · cases h
  rename_i b hb
  exact ⟨b, hb⟩

theorem validateRule_ok (h : validateRule maxTopicsPerRule patterns priorities rule = .ok ()) : RuleOk rule := by
  unfold validateRule at h
  split at h
  · cases h
  split at h
  · cases h
  rename_i ht
  split at h
  · cases h
  split at h
  · cases h
  obtain ⟨hi, he⟩ := validateRuleTopics_ok ht
  exact ⟨hi, he, validateRoutingPattern_ok h⟩

theorem validateEach_ok {i : Nat}
    (h : validateEach maxTopicsPerRule i patterns priorities rules = .ok ()) : ∀ r ∈ rules, RuleOk r := by
  induction rules generalizing i patterns priorities with
  | nil => simp
  | cons rule rest ih =>
    unfold validateEach at h
    cases hrl : validateRule maxTopicsPerRule patterns priorities rule with
    | error e => simp [hrl] at h
    | ok u =>
      simp only [hrl] at h
      exact forall_mem_cons.2 ⟨validateRule_ok hrl, ih h⟩

/-- **What a validated set has**: every rule is well formed, and no egress topic is consumed. -/
theorem validateRoutingRules_ok {maxRules : Int} (h : validateRoutingRules rules maxRules maxTopicsPerRule = .ok ()) :
    (∀ r ∈ rules, RuleOk r) ∧ EgressDisjoint rules := by
  unfold validateRoutingRules at h
  split at h
  · cases h
  split at h
  · cases h
  cases he : validateEach maxTopicsPerRule 0 [] [] rules with
  | error e =>
    rw [he] at h
    cases h
  | ok u =>
    rw [he] at h
    exact ⟨validateEach_ok he, validateEgressDisjoint_eq_ok.1 h⟩

theorem mem_consumeTopicSuffixes : suffix ∈ consumeTopicSuffixes rules ↔
      suffix = defaultTopicSuffix ∨ (suffix ≠ [] ∧ ∃ r ∈ rules, r.ingressTopic = suffix) := by
  simp only [consumeTopicSuffixes, mem_eraseDups, mem_cons, mem_filter, mem_map, decide_eq_true_eq]
  constructor
  · rintro (h | ⟨hr, hne⟩)
    · exact .inl h
    · exact .inr ⟨hne, hr⟩
  · rintro (h | ⟨hne, hr⟩)
    · exact .inl h
    · exact .inr ⟨hr, hne⟩

theorem mem_createOnlyTopicSuffixes : suffix ∈ createOnlyTopicSuffixes rules ↔
      (∃ r ∈ rules, suffix ∈ r.egressTopics) ∧ suffix ≠ [] ∧ suffix ∉ consumeTopicSuffixes rules := by
  simp only [createOnlyTopicSuffixes, mem_eraseDups, mem_filter, mem_flatMap, decide_eq_true_eq]

theorem EgressDisjoint.not_consumed (hd : EgressDisjoint rules) (hr : r ∈ rules) {e : GoStr}
    (he : e ∈ r.egressTopics) (hdf : e ≠ defaultTopicSuffix) : e ∉ consumeTopicSuffixes rules := by
  rw [mem_consumeTopicSuffixes]
  rintro (h | ⟨-, r', hr', hi⟩)
  · exact hdf h
  · exact hd r hr e he r' hr' hi.symm

/-! ## Reading rules back -/

theorem mem_getAll {rows : List (GoStr × RoutingRule)} {tenantID : GoStr} :
    r ∈ RoutingRulesT.getAll rows tenantID ↔ ∃ q, (tenantID, q) ∈ rows ∧ (∃ b, readable q.pattern = .ok b) ∧
        r = { q with pattern := Routing.normalizePattern q.pattern } := by
  simp only [RoutingRulesT.getAll, RoutingRulesT.ofTenant, mem_filterMap, mem_insertionSort, mem_map, mem_filter]
  constructor
  · rintro ⟨q, ⟨⟨id, q'⟩, ⟨hm, hid⟩, rfl⟩, hq⟩
    have hid : id = tenantID := eq_of_beq hid
    subst hid
    cases hb : readable q'.pattern with
    | error e =>
      rw [readable] at hb
      simp [hb] at hq
    | ok b =>
      have hb' := hb
      rw [readable] at hb'
      simp only [hb', Option.some.injEq] at hq
      exact ⟨q', hm, ⟨b, hb⟩, hq.symm⟩
  · rintro ⟨q, hm, ⟨b, hb⟩, rfl⟩
    rw [readable] at hb
    exact ⟨q, ⟨(tenantID, q), ⟨hm, beq_self_eq_true _⟩, rfl⟩, by simp [hb]⟩

end Sukko.Provisioning
