import Sukko.Lib.Steps
import Sukko.Provisioning.RoutingRules
import Sukko.Provisioning.Service
/-
# Topics that routing rules refer to

The calls of one tenant, each store access a step. `abort` is every other end of a call.
-/

namespace Sukko.Provisioning.TopicRefs
open List Function Steps

inductive TopicErr
  | invalidTopicSuffix
  | reservedTopicSuffix
deriving DecidableEq

/-- See `provisioning/service.go:1409`. -/
def validateTopicSuffix (suffix : GoStr) : Except TopicErr Unit :=
  if suffix = [] then .error .invalidTopicSuffix
  else if suffix = defaultTopicSuffix ∨ suffix = deadLetterTopicSuffix then .error .reservedTopicSuffix
  else if 200 < suffix.length then .error .invalidTopicSuffix
  else if !literalSegment suffix then .error .invalidTopicSuffix
  else .ok ()

def allTopicSuffixes (r : RoutingRule) : List GoStr := r.ingressTopic :: r.egressTopics
def topicSuffixes (rules : List RoutingRule) : List GoStr := (rules.flatMap allTopicSuffixes).eraseDups

inductive Write
  | add (rule : RoutingRule)
  | replace (rules : List RoutingRule)
deriving DecidableEq

def Write.rules : Write → List RoutingRule
  | .add rule => [rule]
  | .replace rules => rules

/-- Where a call is; `found` are the topics that it has looked up. -/
inductive Call
  | idle
  | adding (rule : RoutingRule)
  | ensuring (w : Write) (todo found : List GoStr)
  | deleting (suffix : GoStr)
deriving DecidableEq

structure State where
  topics : List GoStr
  rows : List (GoStr × RoutingRule)
  calls : ℕ → Call

def initial : State := ⟨[], [], fun _ => .idle⟩

structure Env where
  id : GoStr
  maxRoutingRulesPerTenant : Int
  maxTopicsPerRule : Int

inductive Act
  | createTopic (suffix : GoStr)
  | deleteTopic (t : ℕ) (suffix : GoStr)
  | delete (t : ℕ)
  | addRoutingRule (t : ℕ) (rule : RoutingRule)
  | precheck (t : ℕ)
  | replaceRoutingRules (t : ℕ) (rules : List RoutingRule)
  | ensure (t : ℕ)
  | write (t : ℕ)
  | deleteRoutingRules
  | abort (t : ℕ)
deriving DecidableEq

def State.setCall (s : State) (t : ℕ) (c : Call) : State := { s with calls := update s.calls t c }

def State.check {ε : Type} (s : State) (t : ℕ) (c : Call) (r : Except ε Unit) : State :=
  s.setCall t (if r.isOk then c else .idle)

def Write.apply (env : Env) (rows : List (GoStr × RoutingRule)) : Write → Option (List (GoStr × RoutingRule))
  | .add rule =>
    if (validateEgressDisjoint (RoutingRulesT.getAll rows env.id ++ [rule])).isOk then
      (RoutingRulesT.add rows env.id rule).toOption
    else none
  | .replace rules => (RoutingRulesT.replace rows env.id rules).toOption

def step (env : Env) (s : State) : Act → Option State
  | .createTopic suffix =>
    some (if (validateTopicSuffix suffix).isOk ∧ suffix ∉ s.topics then { s with topics := suffix :: s.topics } else s)
  | .deleteTopic t suffix =>
    if s.calls t = .idle then
      some (if suffix = defaultTopicSuffix ∨ suffix = deadLetterTopicSuffix ∨
          (RoutingRulesT.getAll s.rows env.id).any (suffix ∈ allTopicSuffixes ·) then s
        else s.setCall t (.deleting suffix))
    else none
  | .delete t =>
    match s.calls t with
    | .deleting suffix => some { s.setCall t .idle with topics := s.topics.filter (· ≠ suffix) }
    | _ => none
  | .addRoutingRule t rule =>
    if s.calls t = .idle then
      some (s.check t (.adding rule.normalized) (validateRoutingRules [rule.normalized] 0 env.maxTopicsPerRule))
    else none
  | .precheck t =>
    match s.calls t with
    | .adding rule =>
      some (s.check t (.ensuring (.add rule) (allTopicSuffixes rule) [])
        (validateEgressDisjoint (RoutingRulesT.getAll s.rows env.id ++ [rule])))
    | _ => none
  | .replaceRoutingRules t rules =>
    if s.calls t = .idle then
      let rules := rules.map RoutingRule.normalized
      some (s.check t (.ensuring (.replace rules) (topicSuffixes rules) [])
        (validateRoutingRules rules env.maxRoutingRulesPerTenant env.maxTopicsPerRule))
    else none
  | .ensure t =>
    match s.calls t with
    | .ensuring w (suffix :: todo) found =>
      some (s.setCall t (if suffix = defaultTopicSuffix ∨ suffix ∈ s.topics then .ensuring w todo (suffix :: found) else .idle))
    | _ => none
  | .write t =>
    match s.calls t with
    | .ensuring w [] _ => some { s.setCall t .idle with rows := (w.apply env s.rows).getD s.rows }
    | _ => none
  | .deleteRoutingRules => some { s with rows := RoutingRulesT.deleteAll s.rows env.id }
  | .abort t => some (s.setCall t .idle)

def Provisioned (s : State) (suffix : GoStr) : Prop := suffix = defaultTopicSuffix ∨ suffix ∈ s.topics

def References (env : Env) (s : State) : Prop :=
  ∀ r, (env.id, r) ∈ s.rows → ∀ suffix ∈ allTopicSuffixes r, Provisioned s suffix

variable {env : Env} {s s' : State} {t : ℕ} {a : Act} {c : Call} {w : Write} {rows : List (GoStr × RoutingRule)}

def Readable (r : RoutingRule) : Prop := ∃ b, readable r.pattern = .ok b

/-! ## What a call knows -/

/-- What a call has read still holds. -/
def CallOk (env : Env) (s : State) : Call → Prop
  | .idle => True
  | .adding rule => Readable rule
  | .ensuring w todo found =>
    (∀ suffix ∈ found, Provisioned s suffix) ∧
      ∀ r ∈ w.rules, Readable r ∧ ∀ suffix ∈ allTopicSuffixes r, suffix ∈ todo ∨ suffix ∈ found
  | .deleting suffix => suffix ≠ defaultTopicSuffix ∧ ∀ r, (env.id, r) ∈ s.rows → suffix ∉ allTopicSuffixes r

structure Inv (env : Env) (s : State) : Prop where
  references : References env s
  readable : ∀ r, (env.id, r) ∈ s.rows → Readable r
  calls : ∀ t, CallOk env s (s.calls t)

theorem CallOk.mono (h : CallOk env s c) (ht : s.topics ⊆ s'.topics) (hr : s'.rows ⊆ s.rows) : CallOk env s' c := by
  cases c with
  | idle => trivial
  | adding rule => exact h
  | ensuring w todo found => exact ⟨fun x hx => (h.1 x hx).imp_right (ht ·), h.2⟩
  | deleting suffix => exact ⟨h.1, fun r hm => h.2 r (hr hm)⟩

theorem Inv.mono (h : Inv env s) (ht : s.topics ⊆ s'.topics) (hr : s'.rows ⊆ s.rows) (hc : s'.calls = s.calls) :
    Inv env s' where
  references := fun r hm x hx => (h.references r (hr hm) x hx).imp_right (ht ·)
  readable := fun r hm => h.readable r (hr hm)
  calls := fun t => hc ▸ (h.calls t).mono ht hr

theorem Inv.setCall (h : Inv env s) (hc : CallOk env s c) : Inv env (s.setCall t c) := by
  refine ⟨h.references, h.readable, fun u => ?_⟩
  have hok : CallOk env s ((s.setCall t c).calls u) := by
    rcases eq_or_ne u t with rfl | hu
    · simpa [State.setCall] using hc
    · simpa [State.setCall, hu] using h.calls u
  exact hok.mono (Subset.refl _) (Subset.refl _)

theorem Inv.check {ε : Type} {r : Except ε Unit} (h : Inv env s) (hc : r = .ok () → CallOk env s c) :
    Inv env (s.check t c r) := by
  cases r with
  | ok u => exact h.setCall (hc rfl)
  | error e => exact h.setCall trivial

theorem readable_of_validate {rules : List RoutingRule} {m n : Int} (h : validateRoutingRules rules m n = .ok ()) :
    ∀ r ∈ rules, Readable r :=
  fun r hr => ((validateRoutingRules_ok h).1 r hr).readable

/-! ## The steps -/

variable {suffix : GoStr}

theorem Inv.deleteTopic (h : Inv env s) (hd : suffix ≠ defaultTopicSuffix)
    (hn : ¬(RoutingRulesT.getAll s.rows env.id).any (suffix ∈ allTopicSuffixes ·) = true) :
    Inv env (s.setCall t (.deleting suffix)) := by
  refine h.setCall ⟨hd, fun r hr hx => hn (any_eq_true.2 ?_)⟩
  exact ⟨_, mem_getAll.2 ⟨r, hr, h.readable r hr, rfl⟩, decide_eq_true hx⟩

theorem mem_deleteAll {id : GoStr} {x : GoStr × RoutingRule} : x ∈ RoutingRulesT.deleteAll rows id ↔ x ∈ rows ∧ x.1 ≠ id := by
  simp [RoutingRulesT.deleteAll]

theorem mem_apply {r : RoutingRule} (h : (env.id, r) ∈ (w.apply env rows).getD rows) : (env.id, r) ∈ rows ∨ r ∈ w.rules := by
  cases w with
  | add rule =>
    simp only [Write.apply, RoutingRulesT.add] at h
    split at h
    · split at h
      · rcases mem_append.1 h with h | h
        · exact Or.inl h
        · exact Or.inr (mem_singleton.2 (Prod.mk.inj (mem_singleton.1 h)).2)
      · exact Or.inl h
    · exact Or.inl h
  | replace rules =>
    simp only [Write.apply, RoutingRulesT.replace] at h
    split at h
    · rcases mem_append.1 h with h | h
      · exact Or.inl (mem_deleteAll.1 h).1
      · obtain ⟨q, hq, heq⟩ := mem_map.1 h
        exact Or.inr ((Prod.mk.inj heq).2 ▸ hq)
    · exact Or.inl h

/-- `DeleteTopic` does not overlap with the calls that store rules: no suffix is written between its check and its deletion, and
none is deleted between the lookup of a rule's topics and the write. -/
def Apart (s : State) : Act → Prop
  | .write t => ∀ w found, s.calls t = .ensuring w [] found → ∀ u suffix, s.calls u = .deleting suffix →
      ∀ r ∈ w.rules, suffix ∉ allTopicSuffixes r
  | .delete t => ∀ suffix, s.calls t = .deleting suffix → ∀ u w todo found, s.calls u = .ensuring w todo found → suffix ∉ found
  | _ => True

theorem Inv.write {found : List GoStr} (h : Inv env s) (hc : s.calls t = .ensuring w [] found)
    (ha : ∀ u suffix, s.calls u = .deleting suffix → ∀ r ∈ w.rules, suffix ∉ allTopicSuffixes r) :
    Inv env { s.setCall t .idle with rows := (w.apply env s.rows).getD s.rows } := by
  have hw : CallOk env s (.ensuring w [] found) := hc ▸ h.calls t
  refine ⟨fun r hr x hx => ?_, fun r hr => ?_, fun u => ?_⟩
  · rcases mem_apply hr with hr | hr
    · exact h.references r hr x hx
    · exact hw.1 x (((hw.2 r hr).2 x hx).resolve_left not_mem_nil)
  · rcases mem_apply hr with hr | hr
    · exact h.readable r hr
    · exact (hw.2 r hr).1
  · rcases eq_or_ne u t with rfl | hu
    · simp [State.setCall, CallOk]
    have hok := h.calls u
    have heq : (s.setCall t .idle).calls u = s.calls u := update_of_ne hu _ _
    simp only [heq]
    cases hcu : s.calls u with
    | idle => trivial
    | adding rule => exact (hcu ▸ hok : CallOk env s (.adding rule))
    | ensuring w todo found => exact (hcu ▸ hok : CallOk env s (.ensuring w todo found))
    | deleting suffix =>
      have hd : CallOk env s (.deleting suffix) := hcu ▸ hok
      refine ⟨hd.1, fun r hr => ?_⟩
      rcases mem_apply hr with hr | hr
      · exact hd.2 r hr
      · exact ha u suffix hcu r hr

theorem Inv.delete (h : Inv env s) (hc : s.calls t = .deleting suffix)
    (ha : ∀ u w todo found, s.calls u = .ensuring w todo found → suffix ∉ found) :
    Inv env { s.setCall t .idle with topics := s.topics.filter (· ≠ suffix) } := by
  have hd : CallOk env s (.deleting suffix) := hc ▸ h.calls t
  have hkeep {x : GoStr} (hx : Provisioned s x) (hne : x ≠ suffix) :
      x = defaultTopicSuffix ∨ x ∈ s.topics.filter (· ≠ suffix) :=
    hx.imp_right fun hm => mem_filter.2 ⟨hm, decide_eq_true hne⟩
  refine ⟨fun r hr x hx => ?_, h.readable, fun u => ?_⟩
  · exact hkeep (h.references r hr x hx) fun heq => hd.2 r hr (heq ▸ hx)
  · rcases eq_or_ne u t with rfl | hu
    · simp [State.setCall, CallOk]
    have hok := h.calls u
    have heq : (s.setCall t .idle).calls u = s.calls u := update_of_ne hu _ _
    simp only [heq]
    cases hcu : s.calls u with
    | idle => trivial
    | adding rule => exact (hcu ▸ hok : CallOk env s (.adding rule))
    | ensuring w todo found =>
      have hw : CallOk env s (.ensuring w todo found) := hcu ▸ hok
      exact ⟨fun x hx => hkeep (hw.1 x hx) fun heq => ha u w todo found hcu (heq ▸ hx), hw.2⟩
    | deleting x => exact (hcu ▸ hok : CallOk env s (.deleting x))

theorem Inv.ensure {todo found : List GoStr} (h : Inv env s)
    (hc : s.calls t = .ensuring w (suffix :: todo) found) (hp : Provisioned s suffix) :
    Inv env (s.setCall t (.ensuring w todo (suffix :: found))) := by
  have hw : CallOk env s (.ensuring w (suffix :: todo) found) := hc ▸ h.calls t
  refine h.setCall ⟨forall_mem_cons.2 ⟨hp, hw.1⟩, fun r hr => ⟨(hw.2 r hr).1, fun x hx => ?_⟩⟩
  rcases (hw.2 r hr).2 x hx with hm | hm
  · rcases mem_cons.1 hm with rfl | hm
    · exact Or.inr mem_cons_self
    · exact Or.inl hm
  · exact Or.inr (mem_cons_of_mem _ hm)

theorem Inv.step (h : Inv env s) (ha : Apart s a) (hs : step env s a = some s') : Inv env s' := by
  cases a with simp only [TopicRefs.step] at hs
  | createTopic suffix =>
    cases hs
    split
    · exact h.mono (subset_cons_self _ _) (Subset.refl _) rfl
    · exact h
  | deleteTopic t suffix =>
    split at hs
    · cases hs
      split
      · exact h
      · rename_i hn
        rw [not_or, not_or] at hn
        exact h.deleteTopic hn.1 hn.2.2
    · cases hs
  | delete t =>
    split at hs <;> cases hs
    rename_i hc
    exact h.delete hc (ha _ hc)
  | addRoutingRule t rule =>
    split at hs <;> cases hs
    exact h.check fun hv => readable_of_validate hv _ mem_cons_self
  | precheck t =>
    split at hs <;> cases hs
    rename_i rule hc
    have hr : CallOk env s (.adding rule) := hc ▸ h.calls t
    refine h.check fun _ => ⟨fun x hx => (nomatch hx), fun r hm => ?_⟩
    obtain rfl : r = rule := mem_singleton.1 hm
    exact ⟨hr, fun x hx => Or.inl hx⟩
  | replaceRoutingRules t rules =>
    split at hs <;> cases hs
    refine h.check fun hv => ⟨fun x hx => (nomatch hx), fun r hr => ⟨readable_of_validate hv r hr, fun x hx => ?_⟩⟩
    exact Or.inl (mem_eraseDups.2 (mem_flatMap.2 ⟨r, hr, hx⟩))
  | ensure t =>
    split at hs <;> cases hs
    rename_i hc
    split
    · exact h.ensure hc ‹_›
    · exact h.setCall trivial
  | write t =>
    split at hs <;> cases hs
    rename_i hc
    exact h.write hc (ha _ _ hc)
  | deleteRoutingRules =>
    cases hs
    exact h.mono (Subset.refl _) (fun x hx => (mem_deleteAll.1 hx).1) rfl
  | abort t =>
    cases hs
    exact h.setCall trivial

theorem inv_initial : Inv env initial :=
  ⟨fun _ hr => (nomatch hr), fun _ hr => (nomatch hr), fun _ => trivial⟩

/-- **Rules only refer to topics that exist** in every interleaving in which `DeleteTopic` does not overlap with the calls that
store rules. -/
theorem references_of_apart (env : Env) (acts : List Act) (s : State) (hrun : run (step env) initial acts = some s)
    (hapart : Along (step env) Apart initial acts) : References env s :=
  (run_invariant_along (Inv env) (fun _ _ _ h ha hs => h.step ha hs) inv_initial hapart hrun).references

def demoEnv : Env := ⟨str "t1", 10, 3⟩
def orders : RoutingRule := ⟨str "orders", str "orders", [], 1⟩
def lookedUp : List Act := [.createTopic (str "orders"), .addRoutingRule 1 orders, .precheck 1, .ensure 1]

theorem references_of_apart_orders : ∃ s, run (step demoEnv) initial (lookedUp ++ [.write 1]) = some s ∧
    (demoEnv.id, orders) ∈ s.rows ∧ References demoEnv s := by
  refine ⟨_, rfl, by decide +kernel, references_of_apart demoEnv (lookedUp ++ [.write 1]) _ rfl ?_⟩
  refine along_append.2 ⟨along_of_forall (by simp [lookedUp, Apart]) _, fun s hs => ⟨fun w found hw u suffix hu => ?_, ?_⟩⟩
  · obtain rfl : _ = s := Option.some.inj hs
    rcases eq_or_ne u 1 with rfl | h1
    · cases hw.symm.trans hu
    · simp [initial, State.check, State.setCall, apply_ite State.calls, h1] at hu
  · cases step demoEnv s (.write 1) <;> trivial

def overlap : List Act :=
  [.createTopic (str "orders"), .deleteTopic 0 (str "orders"), .addRoutingRule 1 orders, .precheck 1, .ensure 1, .delete 0,
    .write 1]

/-- **Bug**: the rule is stored and its topic is gone. -/
theorem overlap_dangling : ∃ s, run (step demoEnv) initial overlap = some s ∧ (demoEnv.id, orders) ∈ s.rows ∧ s.topics = [] ∧
    ¬References demoEnv s := by
  refine ⟨_, rfl, by decide +kernel, by decide +kernel, fun h => ?_⟩
  have hbad := h orders (by decide +kernel) (str "orders") mem_cons_self
  revert hbad
  unfold Provisioned
  decide +kernel

end Sukko.Provisioning.TopicRefs
