import Sukko.Lib.Steps
import Sukko.Provisioning.RoutingRules
import Sukko.Provisioning.Service
/-
# Concurrent changes of the routing rules

`abort` is every other end of a call: a failed statement, a cancelled context, and the checks on what is not kept here.

**PostgreSQL boundary**, at `READ COMMITTED`: a statement sees the rows committed before it began and those of its own
transaction; a `DELETE` removes the rows it saw; the rows of a transaction appear together at its commit, which also frees its
advisory lock.
-/

namespace Sukko.Provisioning.RuleTx
open List Function Option

structure Limits where
  maxRoutingRulesPerTenant : Int
  maxTopicsPerRule : Int
deriving DecidableEq

structure Row where
  id : Nat
  rule : RoutingRule
deriving DecidableEq

inductive Call
  | idle
  | addChecked (tenantID : GoStr) (rule : RoutingRule)
  | addCounted (tenantID : GoStr) (rule : RoutingRule)
  | addPrechecked (tenantID : GoStr) (rule : RoutingRule)
  | addLocked (tenantID : GoStr) (rule : RoutingRule)
  | addReread (tenantID : GoStr) (rule : RoutingRule)
  | addInserted (tenantID : GoStr) (row : Row)
  | replaceChecked (tenantID : GoStr) (rules : List RoutingRule)
  | replaceLocked (tenantID : GoStr) (rules : List RoutingRule)
  | replaceInserting (tenantID : GoStr) (gone : List Nat) (inserted : List Row) (todo : List RoutingRule)
  | deleting (tenantID : GoStr) (seen : List Nat)
deriving DecidableEq

def Call.holds : Call → Option GoStr
  | .addLocked tenantID _ | .addReread tenantID _ | .addInserted tenantID _ => some tenantID
  | .replaceLocked tenantID _ | .replaceInserting tenantID _ _ _ => some tenantID
  | _ => none

structure State where
  rows : GoStr → List Row
  nextID : Nat
  lock : GoStr → Option Nat
  calls : Nat → Call

def State.start : State where
  rows := fun _ => []
  nextID := 0
  lock := fun _ => none
  calls := fun _ => .idle

inductive Act
  | addRoutingRule (t : Nat) (tenantID : GoStr) (rule : RoutingRule)
  | count (t : Nat)
  | precheck (t : Nat)
  | replaceRoutingRules (t : Nat) (tenantID : GoStr) (rules : List RoutingRule)
  | deleteRoutingRules (t : Nat) (tenantID : GoStr)
  | lock (t : Nat)
  | reread (t : Nat)
  | deleteRows (t : Nat)
  | insert (t : Nat)
  | commit (t : Nat)
  | deleted (t : Nat)
  | abort (t : Nat)
deriving DecidableEq

namespace State

def rules (s : State) (tenantID : GoStr) : List RoutingRule := (s.rows tenantID).map Row.rule

def getAll (s : State) (tenantID : GoStr) : List RoutingRule :=
  RoutingRulesT.getAll ((s.rules tenantID).map fun rule => (tenantID, rule)) tenantID

def setCall (s : State) (t : Nat) (c : Call) : State := { s with calls := Function.update s.calls t c }

def setRows (s : State) (tenantID : GoStr) (rows : List Row) : State :=
  { s with rows := Function.update s.rows tenantID rows }

def acquire (s : State) (t : Nat) (tenantID : GoStr) (c : Call) : State :=
  { s.setCall t c with lock := Function.update s.lock tenantID (some t) }

def finish (s : State) (t : Nat) : State :=
  match (s.calls t).holds with
  | some tenantID => { s.setCall t .idle with lock := Function.update s.lock tenantID none }
  | none => s.setCall t .idle

def check {ε : Type} (s : State) (t : Nat) (c : Call) : Except ε Unit → State
  | .ok () => s.setCall t c
  | .error _ => s.finish t

end State

def keep (gone : List Nat) (rows : List Row) : List Row := rows.filter (·.id ∉ gone)
def fits (visible : List RoutingRule) (rule : RoutingRule) : Bool := RoutingRulesT.unique (visible ++ [rule])

def step (limits : Limits) (s : State) : Act → Option State
  | .addRoutingRule t tenantID rule =>
    if s.calls t = .idle then
      some (s.check t (.addChecked tenantID rule.normalized)
        (validateRoutingRules [rule.normalized] 0 limits.maxTopicsPerRule))
    else none
  | .count t =>
    match s.calls t with
    | .addChecked tenantID rule =>
      some (if 0 < limits.maxRoutingRulesPerTenant ∧ limits.maxRoutingRulesPerTenant ≤ (s.rows tenantID).length
        then s.finish t else s.setCall t (.addCounted tenantID rule))
    | _ => none
  | .precheck t =>
    match s.calls t with
    | .addCounted tenantID rule =>
      some (s.check t (.addPrechecked tenantID rule) (validateEgressDisjoint (s.getAll tenantID ++ [rule])))
    | _ => none
  | .replaceRoutingRules t tenantID rules =>
    if s.calls t = .idle then
      some (s.check t (.replaceChecked tenantID (rules.map RoutingRule.normalized))
        (validateRoutingRules (rules.map RoutingRule.normalized) limits.maxRoutingRulesPerTenant limits.maxTopicsPerRule))
    else none
  | .deleteRoutingRules t tenantID =>
    if s.calls t = .idle then some (s.setCall t (.deleting tenantID ((s.rows tenantID).map Row.id))) else none
  | .lock t =>
    match s.calls t with
    | .addPrechecked tenantID rule =>
      if s.lock tenantID = none then some (s.acquire t tenantID (.addLocked tenantID rule)) else none
    | .replaceChecked tenantID rules =>
      if s.lock tenantID = none then some (s.acquire t tenantID (.replaceLocked tenantID rules)) else none
    | _ => none
  | .reread t =>
    match s.calls t with
    | .addLocked tenantID rule =>
      some (s.check t (.addReread tenantID rule) (validateEgressDisjoint (s.getAll tenantID ++ [rule])))
    | _ => none
  | .deleteRows t =>
    match s.calls t with
    | .replaceLocked tenantID rules =>
      some (s.setCall t (.replaceInserting tenantID ((s.rows tenantID).map Row.id) [] rules))
    | _ => none
  | .insert t =>
    match s.calls t with
    | .addReread tenantID rule =>
      some (if fits (s.rules tenantID) rule then
          { s.setCall t (.addInserted tenantID ⟨s.nextID, rule⟩) with nextID := s.nextID + 1 }
        else s.finish t)
    | .replaceInserting tenantID gone inserted (rule :: todo) =>
      some (if fits ((keep gone (s.rows tenantID) ++ inserted).map Row.rule) rule then
          { s.setCall t (.replaceInserting tenantID gone (inserted ++ [⟨s.nextID, rule⟩]) todo) with
            nextID := s.nextID + 1 }
        else s.finish t)
    | _ => none
  | .commit t =>
    match s.calls t with
    | .addInserted tenantID row => some ((s.setRows tenantID (s.rows tenantID ++ [row])).finish t)
    | .replaceInserting tenantID gone inserted [] =>
      some ((s.setRows tenantID (keep gone (s.rows tenantID) ++ inserted)).finish t)
    | _ => none
  | .deleted t =>
    match s.calls t with
    | .deleting tenantID seen => some ((s.setRows tenantID (keep seen (s.rows tenantID))).finish t)
    | _ => none
  | .abort t => some (s.finish t)

/-! ## What a call knows -/

/-- What validation establishes for a set of rules. -/
structure Valid (rules : List RoutingRule) : Prop where
  each : ∀ r ∈ rules, RuleOk r
  disjoint : EgressDisjoint rules

theorem Valid.of_subset {rules rules' : List RoutingRule} (h : Valid rules) (hs : rules' ⊆ rules) : Valid rules' :=
  ⟨fun r hr => h.each r (hs hr), h.disjoint.of_subset hs⟩

def CallOk (s : State) (t : Nat) : Call → Prop
  | .idle | .deleting _ _ => True
  | .addChecked _ rule | .addCounted _ rule | .addPrechecked _ rule => RuleOk rule
  | .addLocked tenantID rule => RuleOk rule ∧ s.lock tenantID = some t
  | .addReread tenantID rule =>
    RuleOk rule ∧ s.lock tenantID = some t ∧ EgressDisjoint (s.rules tenantID ++ [rule])
  | .addInserted tenantID row =>
    RuleOk row.rule ∧ s.lock tenantID = some t ∧ EgressDisjoint (s.rules tenantID ++ [row.rule])
  | .replaceChecked _ rules => Valid rules
  | .replaceLocked tenantID rules => Valid rules ∧ s.lock tenantID = some t
  | .replaceInserting tenantID gone inserted todo =>
    Valid (inserted.map Row.rule ++ todo) ∧ s.lock tenantID = some t ∧ ∀ row ∈ s.rows tenantID, row.id ∈ gone

variable {t : Nat} {rows : List Row} {as : List Act}

theorem CallOk.lock_of_holds {s : State} {c : Call} (h : CallOk s t c) {tenantID : GoStr} (hc : c.holds = some tenantID) :
    s.lock tenantID = some t := by
  cases c with
  | idle | addChecked | addCounted | addPrechecked | replaceChecked | deleting => cases hc
  | addLocked id rule | replaceLocked id rules =>
    cases hc
    exact h.2
  | addReread id rule | addInserted id row | replaceInserting id gone inserted todo =>
    cases hc
    exact h.2.1

theorem CallOk.transfer {s s' : State} {c : Call} (h : CallOk s t c)
    (hk : ∀ tenantID, s.lock tenantID = some t → s'.lock tenantID = some t ∧ s'.rows tenantID ⊆ s.rows tenantID) :
    CallOk s' t c := by
  have hrl (id : GoStr) (rule : RoutingRule) (hs : s'.rows id ⊆ s.rows id) (hd : EgressDisjoint (s.rules id ++ [rule])) :
      EgressDisjoint (s'.rules id ++ [rule]) := by
    refine hd.of_subset fun r hr => ?_
    rcases mem_append.1 hr with hr | hr
    · exact mem_append_left _ (map_subset _ hs hr)
    · exact mem_append_right _ hr
  cases c with
  | idle | deleting | addChecked | addCounted | addPrechecked | replaceChecked => exact h
  | addLocked id rule | replaceLocked id rules => exact ⟨h.1, (hk id h.2).1⟩
  | addReread id rule =>
    obtain ⟨hru, hlc, hd⟩ := h
    obtain ⟨hl, hs⟩ := hk id hlc
    exact ⟨hru, hl, hrl id rule hs hd⟩
  | addInserted id row =>
    obtain ⟨hru, hlc, hd⟩ := h
    obtain ⟨hl, hs⟩ := hk id hlc
    exact ⟨hru, hl, hrl id row.rule hs hd⟩
  | replaceInserting id gone inserted todo =>
    obtain ⟨hv, hlc, hg⟩ := h
    obtain ⟨hl, hs⟩ := hk id hlc
    exact ⟨hv, hl, fun row hrw => hg row (hs hrw)⟩

/-! ## The invariant -/

structure Inv (s : State) : Prop where
  valid : ∀ tenantID, Valid (s.rules tenantID)
  calls : ∀ t, CallOk s t (s.calls t)

@[simp] theorem State.rows_finish (s : State) (t : Nat) : (s.finish t).rows = s.rows := by
  unfold State.finish
  split <;> rfl

@[simp] theorem State.calls_finish (s : State) (t : Nat) : (s.finish t).calls = Function.update s.calls t .idle := by
  unfold State.finish
  split <;> rfl

theorem State.lock_finish {s : State} {t' : Nat}
    (hi : ∀ tenantID, (s.calls t).holds = some tenantID → s.lock tenantID = some t) (ht : t' ≠ t) {tenantID : GoStr}
    (hl : s.lock tenantID = some t') : (s.finish t).lock tenantID = some t' := by
  unfold State.finish
  split
  · rename_i id hid
    have hne : tenantID ≠ id := by
      rintro rfl
      rw [hi tenantID hid] at hl
      exact ht (Option.some.inj hl).symm
    change Function.update s.lock id none tenantID = some t'
    rw [update_of_ne hne, hl]
  · exact hl

namespace Inv
variable {limits : Limits} {s s' : State}

theorem start : Inv State.start where
  valid _ := ⟨fun r hr => (by cases hr), fun r hr => (by cases hr)⟩
  calls _ := trivial

theorem of_call (hi : Inv s) (t : Nat) (hv : ∀ tenantID, Valid (s'.rules tenantID)) (hc : CallOk s' t (s'.calls t))
    (hcl : ∀ t', t' ≠ t → s'.calls t' = s.calls t')
    (hk : ∀ t', t' ≠ t → ∀ tenantID, s.lock tenantID = some t' →
      s'.lock tenantID = some t' ∧ s'.rows tenantID ⊆ s.rows tenantID) : Inv s' where
  valid := hv
  calls t' := by
    by_cases ht : t' = t
    · subst ht
      exact hc
    · rw [hcl t' ht]
      exact (hi.calls t').transfer (hk t' ht)

variable {c : Call} {t : Nat} {tenantID : GoStr}

variable (hi : Inv s)
include hi

theorem setCall (hc : CallOk s t c) : Inv (s.setCall t c) := by
  refine hi.of_call t hi.valid ?_ (fun t' ht => update_of_ne ht _ _) fun t' _ id hl => ⟨hl, fun _ h => h⟩
  change CallOk (s.setCall t c) t (Function.update s.calls t c t)
  rw [update_self]
  exact hc.transfer fun id hl => ⟨hl, fun _ h => h⟩

theorem acquire (hf : s.lock tenantID = none) (hc : CallOk (s.acquire t tenantID c) t c) : Inv (s.acquire t tenantID c) := by
  refine hi.of_call t hi.valid ?_ (fun t' ht => update_of_ne ht _ _) fun t' _ id hl => ⟨?_, fun _ h => h⟩
  · change CallOk (s.acquire t tenantID c) t (Function.update s.calls t c t)
    rw [update_self]
    exact hc
  · have hne : id ≠ tenantID := by
      rintro rfl
      rw [hf] at hl
      cases hl
    exact (update_of_ne hne _ _).trans hl

theorem finish (t : Nat) : Inv (s.finish t) := by
  have hr (id : GoStr) : (s.finish t).rules id = s.rules id := by rw [State.rules, State.rows_finish, State.rules]
  refine hi.of_call t (fun id => hr id ▸ hi.valid id) ?_ (fun t' ht => ?_) fun t' ht id hl => ⟨?_, ?_⟩
  · rw [State.calls_finish, update_self]
    trivial
  · rw [State.calls_finish, update_of_ne ht]
  · exact State.lock_finish (fun _ => (hi.calls t).lock_of_holds) ht hl
  · rw [State.rows_finish]
    exact fun _ h => h

theorem check {ε : Type} {r : Except ε Unit} (hc : r = .ok () → CallOk s t c) : Inv (s.check t c r) := by
  cases r with
  | ok u => exact hi.setCall (hc rfl)
  | error e => exact hi.finish t

theorem commit (hh : (s.calls t).holds = some tenantID)
    (hv : Valid (rows.map Row.rule)) : Inv ((s.setRows tenantID rows).finish t) := by
  have hlc := (hi.calls t).lock_of_holds hh
  refine hi.of_call t (fun id => ?_) ?_ (fun t' ht => ?_) fun t' ht id hl => ?_
  · rw [State.rules, State.rows_finish]
    change Valid ((Function.update s.rows tenantID rows id).map Row.rule)
    by_cases hid : id = tenantID
    · subst hid
      rw [update_self]
      exact hv
    · rw [update_of_ne hid]
      exact hi.valid id
  · rw [State.calls_finish, update_self]
    trivial
  · rw [State.calls_finish, update_of_ne ht]
    rfl
  · have hne : id ≠ tenantID := by
      rintro rfl
      rw [hlc] at hl
      exact ht (Option.some.inj hl).symm
    refine ⟨@State.lock_finish t (s.setRows tenantID rows) t' (fun _ => (hi.calls t).lock_of_holds) ht id hl, ?_⟩
    rw [State.rows_finish]
    change Function.update s.rows tenantID rows id ⊆ s.rows id
    rw [update_of_ne hne]
    exact fun _ h => h

theorem shrink (hs : rows ⊆ s.rows tenantID) : Inv (s.setRows tenantID rows) := by
  have hr (id : GoStr) : (s.setRows tenantID rows).rows id ⊆ s.rows id := by
    change Function.update s.rows tenantID rows id ⊆ s.rows id
    by_cases hid : id = tenantID
    · subst hid
      rw [update_self]
      exact hs
    · rw [update_of_ne hid]
      exact fun _ h => h
  exact ⟨fun id => (hi.valid id).of_subset (map_subset _ (hr id)), fun t => (hi.calls t).transfer fun id hl => ⟨hl, hr id⟩⟩

theorem disjoint_of_check {rule : RoutingRule}
    (h : validateEgressDisjoint (s.getAll tenantID ++ [rule]) = .ok ()) : EgressDisjoint (s.rules tenantID ++ [rule]) := by
  refine (validateEgressDisjoint_eq_ok.1 h).of_topics fun r hr => ?_
  rcases mem_append.1 hr with hr | hr
  · refine ⟨_, mem_append_left _ (mem_getAll.2 ⟨r, ?_, ((hi.valid tenantID).each r hr).readable, rfl⟩), rfl, rfl⟩
    exact mem_map_of_mem hr
  · exact ⟨r, mem_append_right _ hr, rfl, rfl⟩

theorem takeID (nextID : Nat) : Inv { s with nextID := nextID } :=
  ⟨hi.valid, fun t => (hi.calls t).transfer fun _ hl => ⟨hl, fun _ h => h⟩⟩

/-! ### The steps -/

theorem lock (hs : step limits s (.lock t) = some s') : Inv s' := by
  have hcl := hi.calls t
  cases hc : s.calls t with
  | addPrechecked tenantID rule | replaceChecked tenantID rules =>
    simp only [step, hc, Steps.guarded] at hs
    obtain ⟨hf, rfl⟩ := hs
    rw [hc] at hcl
    exact hi.acquire hf ⟨hcl, update_self _ _ _⟩
  | idle | addChecked | addCounted | addLocked | addReread | addInserted | replaceLocked | replaceInserting | deleting =>
    simp [step, hc] at hs

theorem insert (hs : step limits s (.insert t) = some s') : Inv s' := by
  have hcl := hi.calls t
  cases hc : s.calls t with
  | addReread tenantID rule =>
    simp only [step, hc] at hs
    cases hs
    rw [hc] at hcl
    by_cases hf : fits (s.rules tenantID) rule = true
    · rw [if_pos hf]
      have hset : Inv (s.setCall t (.addInserted tenantID ⟨s.nextID, rule⟩)) := hi.setCall hcl
      exact hset.takeID (s.nextID + 1)
    · rw [if_neg hf]
      exact hi.finish t
  | replaceInserting tenantID gone inserted todo =>
    cases todo with
    | nil => simp [step, hc] at hs
    | cons rule todo =>
      simp only [step, hc] at hs
      cases hs
      rw [hc] at hcl
      split
      · have hm : CallOk s t (.replaceInserting tenantID gone (inserted ++ [⟨s.nextID, rule⟩]) todo) := by
          obtain ⟨hv, hr⟩ := hcl
          refine ⟨?_, hr⟩
          rwa [map_append, map_cons, map_nil, append_assoc, singleton_append]
        exact (hi.setCall hm).takeID (s.nextID + 1)
      · exact hi.finish t
  | idle | addChecked | addCounted | addPrechecked | addLocked | addInserted | replaceChecked | replaceLocked | deleting =>
    simp [step, hc] at hs

theorem commitStep (hs : step limits s (.commit t) = some s') : Inv s' := by
  have hcl := hi.calls t
  cases hc : s.calls t with
  | addInserted tenantID row =>
    simp only [step, hc] at hs
    cases hs
    rw [hc] at hcl
    obtain ⟨hrl, -, hd⟩ := hcl
    refine hi.commit (by rw [hc]; rfl) ⟨fun r hr => ?_, by rw [map_append]; exact hd⟩
    rw [map_append, mem_append] at hr
    rcases hr with hr | hr
    · exact (hi.valid tenantID).each r hr
    · rw [map_cons, map_nil, mem_singleton] at hr
      exact hr ▸ hrl
  | replaceInserting tenantID gone inserted todo =>
    cases todo with
    | cons rule todo => simp [step, hc] at hs
    | nil =>
      simp only [step, hc] at hs
      cases hs
      rw [hc] at hcl
      obtain ⟨hv, -, hg⟩ := hcl
      -- no other transaction has inserted since the `DELETE`, so it has removed every row
      have hk : keep gone (s.rows tenantID) = [] := filter_eq_nil_iff.2 fun row hrw => by simp [hg row hrw]
      refine hi.commit (by rw [hc]; rfl) ?_
      rw [hk, nil_append]
      rwa [append_nil] at hv
  | idle | addChecked | addCounted | addPrechecked | addLocked | addReread | replaceChecked | replaceLocked | deleting =>
    simp [step, hc] at hs

theorem step {a : Act} (hs : step limits s a = some s') : Inv s' := by
  cases a with
  | lock t => exact hi.lock hs
  | insert t => exact hi.insert hs
  | commit t => exact hi.commitStep hs
  | addRoutingRule t tenantID rule =>
    simp only [RuleTx.step, Steps.guarded] at hs
    obtain ⟨-, rfl⟩ := hs
    exact hi.check fun h => (validateRoutingRules_ok h).1 _ (mem_singleton_self _)
  | replaceRoutingRules t tenantID rules =>
    simp only [RuleTx.step, Steps.guarded] at hs
    obtain ⟨-, rfl⟩ := hs
    refine hi.check fun h => ?_
    obtain ⟨he, hd⟩ := validateRoutingRules_ok h
    exact ⟨he, hd⟩
  | deleteRoutingRules t tenantID =>
    simp only [RuleTx.step, Steps.guarded] at hs
    obtain ⟨-, rfl⟩ := hs
    exact hi.setCall trivial
  | count t =>
    have hcl := hi.calls t
    cases hc : s.calls t with
    | addChecked tenantID rule =>
      simp only [RuleTx.step, hc] at hs
      cases hs
      rw [hc] at hcl
      split
      · exact hi.finish t
      · exact hi.setCall hcl
    | _ => simp [RuleTx.step, hc] at hs
  | precheck t =>
    have hcl := hi.calls t
    cases hc : s.calls t with
    | addCounted tenantID rule =>
      simp only [RuleTx.step, hc] at hs
      cases hs
      rw [hc] at hcl
      exact hi.check fun _ => hcl
    | _ => simp [RuleTx.step, hc] at hs
  | reread t =>
    have hcl := hi.calls t
    cases hc : s.calls t with
    | addLocked tenantID rule =>
      simp only [RuleTx.step, hc] at hs
      cases hs
      rw [hc] at hcl
      exact hi.check fun h => ⟨hcl.1, hcl.2, hi.disjoint_of_check h⟩
    | _ => simp [RuleTx.step, hc] at hs
  | deleteRows t =>
    have hcl := hi.calls t
    cases hc : s.calls t with
    | replaceLocked tenantID rules =>
      simp only [RuleTx.step, hc] at hs
      cases hs
      rw [hc] at hcl
      exact hi.setCall ⟨hcl.1, hcl.2, fun row hr => mem_map_of_mem hr⟩
    | _ => simp [RuleTx.step, hc] at hs
  | deleted t =>
    cases hc : s.calls t with
    | deleting tenantID seen =>
      simp only [RuleTx.step, hc] at hs
      cases hs
      exact (hi.shrink fun _ h => mem_of_mem_filter h).finish t
    | _ => simp [RuleTx.step, hc] at hs
  | abort t =>
    simp only [RuleTx.step] at hs
    cases hs
    exact hi.finish t

end Inv

/-- **The committed rules stay valid** in every interleaving of additions, replacements and deletions. -/
theorem rules_valid {limits : Limits} {s : State}
    (hr : Steps.run (step limits) State.start as = some s) (tenantID : GoStr) : Valid (s.rules tenantID) :=
  (Steps.run_invariant Inv (fun _ _ _ hi hs => hi.step hs) Inv.start hr).valid tenantID

theorem getAll_valid {limits : Limits} {s : State} (hrn : Steps.run (step limits) State.start as = some s) (tenantID : GoStr) :
    (∀ r ∈ s.getAll tenantID, r.ingressTopic ≠ [] ∧ ∀ e ∈ r.egressTopics, e ≠ [] ∧ e ≠ defaultTopicSuffix) ∧
      EgressDisjoint (s.getAll tenantID) := by
  have hv := rules_valid hrn tenantID
  have hs (r : RoutingRule) (hr : r ∈ s.getAll tenantID) :
      ∃ q ∈ s.rules tenantID, q.ingressTopic = r.ingressTopic ∧ q.egressTopics = r.egressTopics := by
    obtain ⟨q, hq, -, rfl⟩ := mem_getAll.1 hr
    obtain ⟨q', hq', heq⟩ := mem_map.1 hq
    exact ⟨q, (Prod.mk.inj heq).2 ▸ hq', rfl, rfl⟩
  refine ⟨fun r hr => ?_, hv.disjoint.of_topics hs⟩
  obtain ⟨q, hq, hi, heg⟩ := hs r hr
  have hok := hv.each q hq
  refine ⟨hi ▸ hok.ingress, fun e he => ?_⟩
  obtain ⟨hne, hd, -⟩ := hok.egress e (heg ▸ he)
  exact ⟨hne, hd⟩

end Sukko.Provisioning.RuleTx
