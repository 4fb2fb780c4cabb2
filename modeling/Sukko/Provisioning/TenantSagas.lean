import Sukko.Lib.GoString
import Sukko.Lib.Steps
/-
# What the sagas of tenants leave behind

Each access to Kafka or to the store is a step that may fail. Who made a topic or the ACLs is kept to state the results. What
follows a commit is left out.
-/

namespace Sukko.Provisioning.Sagas
open List Function Steps Option

/-- What a saga makes under a slug. -/
inductive Kind
  | deadLetter
  | defaultTopic
  | acl
deriving DecidableEq

inductive Saga
  | create (slug : GoStr)
  | rename (id : ℕ) (slug : GoStr)
deriving DecidableEq

namespace Saga

def target : Saga → GoStr
  | create slug | rename _ slug => slug

def tenant : Saga → Option ℕ
  | create _ => none
  | rename id _ => some id

def kinds : Saga → List Kind
  | create _ => [.deadLetter, .defaultTopic]
  | rename _ _ => [.acl, .deadLetter, .defaultTopic]

/-- What is deleted when the slug turns out to be taken: a rename does not ask who made it. -/
def undoes (made : List Kind) : Saga → List Kind
  | create _ => made
  | rename id slug => (rename id slug).kinds

end Saga

/-- Where a call is; `todo` and `made` are what it still has to make and what it has made. -/
inductive Call
  | idle
  | clearing (id : ℕ) (slug : GoStr)
  | checking (id : ℕ) (slug : GoStr)
  | locking (id : ℕ) (slug : GoStr)
  | making (saga : Saga) (todo made : List Kind)
  | undoing (saga : Saga) (todo : List Kind)
deriving DecidableEq

def Call.target : Call → Option GoStr
  | .idle => none
  | .clearing _ slug | .checking _ slug | .locking _ slug => some slug
  | .making saga _ _ | .undoing saga _ => some saga.target

def Call.tenant : Call → Option ℕ
  | .idle => none
  | .clearing id _ | .checking id _ | .locking id _ => some id
  | .making saga _ _ | .undoing saga _ => saga.tenant

structure Tenant where
  slug : GoStr
  pending : Bool
  renamed : Bool
deriving DecidableEq

structure State where
  made : GoStr → Kind → Option ℕ
  tenants : ℕ → Option Tenant
  nextID : ℕ
  calls : ℕ → Call
  /-- Who deleted something, and who had made it. -/
  undone : List (ℕ × ℕ)

def initial : State := ⟨fun _ _ => none, fun _ => none, 0, fun _ => .idle, []⟩

namespace State

def setCall (s : State) (t : ℕ) (c : Call) : State := { s with calls := update s.calls t c }

def setTenant (s : State) (id : ℕ) (f : Tenant → Tenant) : State :=
  { s with tenants := update s.tenants id ((s.tenants id).map f) }

def setMade (s : State) (slug : GoStr) (k : Kind) (o : Option ℕ) : State :=
  { s with made := update s.made slug (update (s.made slug) k o) }

def taken (s : State) (slug : GoStr) : Bool := (range s.nextID).any fun id => (s.tenants id).any (·.slug = slug)

/-- An access failed: `CreateTenant` rolls back, `RenameTenant` returns at once. -/
def fail (s : State) (t : ℕ) (made : List Kind) : Saga → State
  | .create slug => s.setCall t (.undoing (.create slug) made)
  | .rename _ _ => s.setCall t .idle

def store (s : State) : Saga → State
  | .create slug => { s with tenants := update s.tenants s.nextID (some ⟨slug, false, false⟩), nextID := s.nextID + 1 }
  | .rename id slug => s.setTenant id fun _ => ⟨slug, false, true⟩

end State

inductive Act
  | create (t : ℕ) (slug : GoStr)
  | rename (t id : ℕ) (slug : GoStr) (elapsed : Bool)
  | lazyClear (t : ℕ) (ok : Bool)
  | check (t : ℕ) (ok : Bool)
  | lock (t : ℕ) (ok : Bool)
  | make (t : ℕ) (ok : Bool)
  | commit (t : ℕ) (ok : Bool)
  | undo (t : ℕ) (ok : Bool)
  | finish (t : ℕ) (ok : Bool)
deriving DecidableEq

def clear (tenant : Tenant) : Tenant := { tenant with pending := false, renamed := false }

def step (s : State) : Act → Option State
  | .create t slug =>
    match s.calls t with
    | .idle => some (s.setCall t (.making (.create slug) (Saga.create slug).kinds []))
    | _ => none
  | .rename t id slug elapsed =>
    match s.calls t, s.tenants id with
    | .idle, some tenant =>
      some (if tenant.slug = slug then s
        else if tenant.renamed then (if elapsed then s.setCall t (.clearing id slug) else s)
        else s.setCall t (.checking id slug))
    | _, _ => none
  | .lazyClear t ok =>
    match s.calls t with
    | .clearing id slug => some ((if ok then s.setTenant id clear else s).setCall t (.checking id slug))
    | _ => none
  -- an error of the lookup counts as a free slug
  | .check t ok =>
    match s.calls t with
    | .checking id slug => some (s.setCall t (if ok && s.taken slug then .idle else .locking id slug))
    | _ => none
  | .lock t ok =>
    match s.calls t with
    | .locking id slug =>
      some (if ok ∧ (s.tenants id).any (!·.pending) then
          (s.setTenant id fun tenant => { tenant with pending := true }).setCall t
            (.making (.rename id slug) (Saga.rename id slug).kinds [])
        else s.setCall t .idle)
    | _ => none
  | .make t ok =>
    match s.calls t with
    | .making saga (k :: todo) made =>
      some (if !ok then s.fail t made saga
        else if (s.made saga.target k).isSome then s.setCall t (.making saga todo made)
        else (s.setMade saga.target k (some t)).setCall t (.making saga todo (k :: made)))
    | _ => none
  | .commit t ok =>
    match s.calls t with
    | .making saga [] made =>
      some (if !ok then s.fail t made saga
        else if s.taken saga.target then s.setCall t (.undoing saga (saga.undoes made))
        else (s.store saga).setCall t .idle)
    | _ => none
  | .undo t ok =>
    match s.calls t with
    | .undoing saga (k :: todo) =>
      some (match ok, s.made saga.target k with
        | true, some maker =>
          { (s.setMade saga.target k none).setCall t (.undoing saga todo) with undone := s.undone ++ [(t, maker)] }
        | _, _ => s.setCall t (.undoing saga todo))
    | _ => none
  | .finish t ok =>
    match s.calls t with
    | .undoing (.create _) [] => some (s.setCall t .idle)
    | .undoing (.rename id _) [] => some ((if ok then s.setTenant id clear else s).setCall t .idle)
    | _ => none

/-- Nothing of others is undone, active tenants have their topics, and a tenant is pending only during a rename. -/
structure Exact (s : State) : Prop where
  undone : ∀ e ∈ s.undone, e.2 = e.1
  topics : ∀ id tenant, s.tenants id = some tenant → ∀ k, k ≠ .acl → s.made tenant.slug k ≠ none
  pending : ∀ id tenant, s.tenants id = some tenant → tenant.pending = true →
    ∃ t slug todo made, s.calls t = .making (.rename id slug) todo made

/-- Calls for one slug, and renames of one tenant, do not overlap; from the lookup of the new slug to the commit nothing of a
rename fails. -/
def Alone (s : State) : Act → Prop
  | .create _ slug => ∀ u, (s.calls u).target ≠ some slug
  | .rename _ id slug _ => ∀ u, (s.calls u).target ≠ some slug ∧ (s.calls u).tenant ≠ some id
  | .check _ ok => ok = true
  | .make t ok | .commit t ok => (s.calls t).tenant ≠ none → ok = true
  | _ => True

variable {s s' : State} {t u id : ℕ} {c c' : Call} {slug x : GoStr} {k : Kind} {saga : Saga} {todo made : List Kind} {ok : Bool}
  {f : Tenant → Tenant}

/-! ## What a call knows -/

def Free (s : State) (x : GoStr) : Prop := ∀ id tenant, s.tenants id = some tenant → tenant.slug ≠ x

/-- What a call relies on at each point: the slug is free, and what it made is still its own. -/
def CallOk (s : State) (t : ℕ) : Call → Prop
  | .idle | .clearing _ _ | .checking _ _ => True
  | .locking _ slug => Free s slug
  | .making saga todo made =>
    (∀ k ∈ saga.kinds, k ∈ todo ∨ s.made saga.target k ≠ none) ∧ todo ⊆ saga.kinds ∧ made.Nodup ∧
      (∀ k ∈ made, s.made saga.target k = some t) ∧ (made ≠ [] ∨ saga.tenant ≠ none → Free s saga.target)
  | .undoing saga todo =>
    saga.tenant = none ∧ todo.Nodup ∧ (∀ k ∈ todo, s.made saga.target k = some t) ∧ (todo ≠ [] → Free s saga.target)

structure Inv (s : State) : Prop extends Exact s where
  ids : ∀ id, s.nextID ≤ id → s.tenants id = none
  targets : ∀ t u x, (s.calls t).target = some x → (s.calls u).target = some x → t = u
  owners : ∀ t u id, (s.calls t).tenant = some id → (s.calls u).tenant = some id → t = u
  calls : ∀ t, CallOk s t (s.calls t)

theorem Inv.call (h : Inv s) (hcall : s.calls t = c) : CallOk s t c := hcall ▸ h.calls t

theorem CallOk.transfer (h : CallOk s u c)
    (hm : ∀ x, c.target = some x → s'.made x = s.made x ∧ (Free s x → Free s' x)) : CallOk s' u c := by
  cases c with
  | idle | clearing id slug | checking id slug => trivial
  | locking id slug => exact (hm slug rfl).2 h
  | making saga todo made =>
    obtain ⟨hall, hsub, hn, hown, hfree⟩ := h
    rw [← (hm _ rfl).1] at hall hown
    exact ⟨hall, hsub, hn, hown, fun hx => (hm _ rfl).2 (hfree hx)⟩
  | undoing saga todo =>
    obtain ⟨hc, hn, hown, hfree⟩ := h
    rw [← (hm _ rfl).1] at hown
    exact ⟨hc, hn, hown, fun hx => (hm _ rfl).2 (hfree hx)⟩

def Call.Follows (c' c : Call) : Prop := (c'.target = c.target ∧ c'.tenant = c.tenant) ∨ c' = .idle

theorem Call.Follows.target (h : c'.Follows c) (hx : c'.target = some x) : c.target = some x := by
  rcases h with ⟨he, -⟩ | rfl
  · exact he ▸ hx
  · cases hx

theorem Call.Follows.tenant (h : c'.Follows c) (hx : c'.tenant = some id) : c.tenant = some id := by
  rcases h with ⟨-, he⟩ | rfl
  · exact he ▸ hx
  · cases hx

/-- One call moves on and touches only its own slug. -/
theorem Inv.move (h : Inv s) (hcall : s.calls t = c) (hc : s'.calls = update s.calls t c') (hf : c'.Follows c)
    (hm : ∀ x, c.target ≠ some x → s'.made x = s.made x ∧ (Free s x → Free s' x))
    (hok : CallOk s' t c') (hexact : Exact s') (hids : ∀ id, s'.nextID ≤ id → s'.tenants id = none) : Inv s' := by
  have hself : s'.calls t = c' := by rw [hc, update_self]
  have hother : ∀ u, u ≠ t → s'.calls u = s.calls u := fun u hu => by rw [hc, update_of_ne hu]
  have htgt : ∀ u x, (s'.calls u).target = some x → (s.calls u).target = some x := fun u x hx => by
    rcases eq_or_ne u t with rfl | hu
    · exact hcall ▸ hf.target (hself ▸ hx)
    · exact hother u hu ▸ hx
  have htnt : ∀ u id, (s'.calls u).tenant = some id → (s.calls u).tenant = some id := fun u id hx => by
    rcases eq_or_ne u t with rfl | hu
    · exact hcall ▸ hf.tenant (hself ▸ hx)
    · exact hother u hu ▸ hx
  refine ⟨hexact, hids, fun a b x ha hb => h.targets a b x (htgt a x ha) (htgt b x hb),
    fun a b id ha hb => h.owners a b id (htnt a id ha) (htnt b id hb), fun u => ?_⟩
  rcases eq_or_ne u t with rfl | hu
  · rw [hself]
    exact hok
  · rw [hother u hu]
    have hne : ∀ x, (s.calls u).target = some x → c.target ≠ some x := fun x hx ht =>
      hu (h.targets u t x hx (hcall.symm ▸ ht))
    exact (h.calls u).transfer fun x hx => hm x (hne x hx)

theorem Exact.setCall (h : Exact s) (hcall : s.calls t = c) (hp : ∀ id slug todo made,
    c = .making (.rename id slug) todo made → ∃ todo' made', c' = .making (.rename id slug) todo' made') :
    Exact (s.setCall t c') := by
  refine ⟨h.undone, h.topics, fun id tenant hi hpend => ?_⟩
  obtain ⟨u, slug, todo, made, hu⟩ := h.pending id tenant hi hpend
  rcases eq_or_ne u t with rfl | hne
  · obtain ⟨todo', made', rfl⟩ := hp id slug todo made (hcall.symm.trans hu)
    exact ⟨u, slug, todo', made', update_self ..⟩
  · exact ⟨u, slug, todo, made, (update_of_ne hne ..).trans hu⟩

theorem Inv.setCall (h : Inv s) (hcall : s.calls t = c) (hf : c'.Follows c) (hok : CallOk s t c')
    (hp : ∀ id slug todo made, c = .making (.rename id slug) todo made →
      ∃ todo' made', c' = .making (.rename id slug) todo' made') : Inv (s.setCall t c') :=
  h.move hcall rfl hf (fun _ _ => ⟨rfl, fun hfr => hfr⟩) (hok.transfer fun _ _ => ⟨rfl, fun hfr => hfr⟩)
    (h.toExact.setCall hcall hp) h.ids

theorem Inv.start (h : Inv s) (hidle : s.calls t = .idle) (htarget : ∀ x, c.target = some x → ∀ u, (s.calls u).target ≠ some x)
    (htenant : ∀ id, c.tenant = some id → ∀ u, (s.calls u).tenant ≠ some id) (hok : CallOk s t c) : Inv (s.setCall t c) := by
  have hother : ∀ u, u ≠ t → (s.setCall t c).calls u = s.calls u := fun u hu => update_of_ne hu ..
  have hself : (s.setCall t c).calls t = c := update_self ..
  refine ⟨h.toExact.setCall hidle nofun, h.ids, fun a b x ha hb => ?_, fun a b id ha hb => ?_, fun u => ?_⟩
  · by_contra hab
    rcases eq_or_ne a t with rfl | ha'
    · exact htarget x (hself ▸ ha) b (hother b (Ne.symm hab) ▸ hb)
    · rcases eq_or_ne b t with rfl | hb'
      · exact htarget x (hself ▸ hb) a (hother a hab ▸ ha)
      · exact hab (h.targets a b x (hother a ha' ▸ ha) (hother b hb' ▸ hb))
  · by_contra hab
    rcases eq_or_ne a t with rfl | ha'
    · exact htenant id (hself ▸ ha) b (hother b (Ne.symm hab) ▸ hb)
    · rcases eq_or_ne b t with rfl | hb'
      · exact htenant id (hself ▸ hb) a (hother a hab ▸ ha)
      · exact hab (h.owners a b id (hother a ha' ▸ ha) (hother b hb' ▸ hb))
  · rcases eq_or_ne u t with rfl | hu
    · rw [hself]
      exact hok.transfer fun _ _ => ⟨rfl, fun hf => hf⟩
    · rw [hother u hu]
      exact (h.calls u).transfer fun _ _ => ⟨rfl, fun hf => hf⟩

/-! ## Tenants -/

theorem not_free (h : s.taken x = true) : ¬ Free s x := by
  intro hf
  obtain ⟨id, -, hid⟩ := any_eq_true.1 h
  cases ht : s.tenants id with
  | none =>
    rw [ht] at hid
    cases hid
  | some tenant =>
    rw [ht] at hid
    exact hf id tenant ht (of_decide_eq_true hid)

theorem Inv.free (h : Inv s) (hx : s.taken x = false) : Free s x := by
  intro id tenant hi heq
  have hlt : id < s.nextID := by
    by_contra hge
    rw [h.ids id (Nat.le_of_not_lt hge)] at hi
    cases hi
  have := any_eq_false.1 hx id (mem_range.2 hlt)
  rw [hi] at this
  exact this (decide_eq_true heq)

theorem setTenant_some {j : ℕ} {tenant : Tenant} (h : (s.setTenant id f).tenants j = some tenant) :
    (j ≠ id ∧ s.tenants j = some tenant) ∨ j = id ∧ ∃ old, s.tenants id = some old ∧ tenant = f old := by
  rcases eq_or_ne j id with rfl | hne
  · have h' : update s.tenants j ((s.tenants j).map f) j = some tenant := h
    rw [update_self] at h'
    obtain ⟨old, hold, he⟩ := map_eq_some_iff.1 h'
    exact Or.inr ⟨rfl, old, hold, he.symm⟩
  · exact Or.inl ⟨hne, (update_of_ne hne ..).symm.trans h⟩

theorem Inv.ids_setTenant (h : Inv s) (j : ℕ) (hj : s.nextID ≤ j) : (s.setTenant id f).tenants j = none := by
  by_contra hne
  obtain ⟨tenant, ht⟩ := Option.ne_none_iff_exists'.1 hne
  rcases setTenant_some ht with ⟨-, he⟩ | ⟨rfl, old, he, -⟩ <;> exact absurd he (by rw [h.ids j hj]; simp)

theorem Free.setTenant (h : Free s x) (hf : ∀ old, old.slug ≠ x → (f old).slug ≠ x) : Free (s.setTenant id f) x := by
  intro j tenant hj
  rcases setTenant_some hj with ⟨-, he⟩ | ⟨-, old, hold, rfl⟩
  · exact h j tenant he
  · exact hf old (h id old hold)

theorem Exact.setTenant (h : Exact s) (hcall : s.calls t = c)
    (ht : ∀ old, s.tenants id = some old → ∀ k, k ≠ .acl → s.made (f old).slug k ≠ none)
    (hpend : ∀ old, (f old).pending = true → ∃ slug todo made, c' = .making (.rename id slug) todo made)
    (hp : ∀ j slug todo made, c = .making (.rename j slug) todo made → j = id) : Exact ((s.setTenant id f).setCall t c') := by
  refine ⟨h.undone, fun j tenant hj k hk => ?_, fun j tenant hj htrue => ?_⟩
  · rcases setTenant_some hj with ⟨-, he⟩ | ⟨-, old, hold, rfl⟩
    · exact h.topics j tenant he k hk
    · exact ht old hold k hk
  · rcases setTenant_some hj with ⟨hne, he⟩ | ⟨rfl, old, hold, rfl⟩
    · obtain ⟨u, slug, todo, made, hu⟩ := h.pending j tenant he htrue
      have hut : u ≠ t := fun he => hne (hp j slug todo made (hcall.symm.trans (he ▸ hu)))
      exact ⟨u, slug, todo, made, (update_of_ne hut ..).trans hu⟩
    · obtain ⟨slug, todo, made, rfl⟩ := hpend old htrue
      exact ⟨t, slug, todo, made, update_self ..⟩

/-! ## The steps -/

theorem step_lazyClear (h : Inv s) (hs : step s (.lazyClear t ok) = some s') : Inv s' := by
  simp only [step] at hs
  split at hs
  · rename_i id slug hcall
    obtain rfl := some.inj hs
    cases ok with
    | false =>
      exact h.setCall hcall (Or.inl ⟨rfl, rfl⟩) trivial nofun
    | true =>
      exact h.move hcall rfl (Or.inl ⟨rfl, rfl⟩) (fun x _ => ⟨rfl, fun hf => hf.setTenant fun old hold => hold⟩) trivial
        (h.toExact.setTenant hcall (fun old hold => h.topics id old hold) nofun nofun) h.ids_setTenant
  · cases hs

theorem step_check (h : Inv s) (ha : ok = true) (hs : step s (.check t ok) = some s') : Inv s' := by
  simp only [step] at hs
  split at hs
  · rename_i id slug hcall
    obtain rfl := some.inj hs
    rw [ha, Bool.true_and]
    cases htk : s.taken slug with
    | true => exact h.setCall hcall (Or.inr rfl) trivial nofun
    | false =>
      exact h.setCall hcall (Or.inl ⟨rfl, rfl⟩) (h.free htk) nofun
  · cases hs

theorem step_lock (h : Inv s) (hs : step s (.lock t ok) = some s') : Inv s' := by
  simp only [step] at hs
  split at hs
  · rename_i id slug hcall
    obtain rfl := some.inj hs
    have hfree : Free s slug := h.call hcall
    split
    · exact h.move hcall rfl (Or.inl ⟨rfl, rfl⟩) (fun x _ => ⟨rfl, fun hf => hf.setTenant fun old hold => hold⟩)
        ⟨fun k hk => Or.inl hk, Subset.refl _, nodup_nil, fun k hk => (nomatch hk), fun _ => hfree.setTenant fun old hold => hold⟩
        (h.toExact.setTenant hcall (fun old hold => h.topics id old hold) (fun old _ => ⟨slug, _, _, rfl⟩) nofun)
        h.ids_setTenant
    · exact h.setCall hcall (Or.inr rfl) trivial nofun
  · cases hs

theorem Inv.undo_create (h : Inv s) (hcall : s.calls t = .making (.create slug) todo made) :
    Inv (s.setCall t (.undoing (.create slug) made)) := by
  obtain ⟨-, -, hn, hown, hfree⟩ : CallOk s t (.making (.create slug) todo made) := h.call hcall
  exact h.setCall hcall (Or.inl ⟨rfl, rfl⟩) ⟨rfl, hn, hown, fun hne => hfree (Or.inl hne)⟩ nofun

theorem Inv.fail (h : Inv s) (hcall : s.calls t = .making saga todo made) (ha : saga.tenant = none) : Inv (s.fail t made saga) := by
  cases saga with
  | create slug => exact h.undo_create hcall
  | rename id slug => cases ha

theorem setMade_of_ne (o : Option ℕ) (hx : x ≠ slug) : (s.setMade slug k o).made x = s.made x := update_of_ne hx ..

theorem setMade_self {o : Option ℕ} {j : Kind} : (s.setMade slug k o).made slug j = if j = k then o else s.made slug j := by
  show update s.made slug (update (s.made slug) k o) slug j = _
  rw [update_self, update_apply]

section
variable (h : Inv s)
include h

theorem Inv.free_of_missing (hcall : s.calls t = .making saga (k :: todo) made)
    (hk : s.made saga.target k = none) : Free s saga.target := by
  obtain ⟨-, hsub, -, -, hfree⟩ : CallOk s t (.making saga (k :: todo) made) := h.call hcall
  cases saga with
  | rename id slug => exact hfree (Or.inr (some_ne_none _))
  | create slug =>
    intro id tenant hi heq
    have hne : k ≠ .acl := by
      rintro rfl
      have hmem := hsub mem_cons_self
      simp [Saga.kinds] at hmem
    exact h.topics id tenant hi k hne (heq ▸ hk)

theorem Inv.made_new (hcall : s.calls t = .making saga (k :: todo) made) (hk : s.made saga.target k = none) :
    Inv ((s.setMade saga.target k (some t)).setCall t (.making saga todo (k :: made))) := by
  obtain ⟨hall, hsub, hn, hown, hfree⟩ : CallOk s t (.making saga (k :: todo) made) := h.call hcall
  have hfr : Free s saga.target := h.free_of_missing hcall hk
  have hnot : k ∉ made := fun hmem => by
    rw [hown k hmem] at hk
    cases hk
  have hself : ∀ j, (s.setMade saga.target k (some t)).made saga.target j = if j = k then some t else s.made saga.target j :=
    fun j => setMade_self
  refine h.move hcall rfl (Or.inl ⟨rfl, rfl⟩)
    (fun x hx => ⟨setMade_of_ne _ fun he => hx (he ▸ rfl), fun hf => hf⟩)
    ⟨fun j hj => ?_, fun j hj => hsub (mem_cons_of_mem _ hj), nodup_cons.2 ⟨hnot, hn⟩, fun j hj => ?_, fun _ => hfr⟩
    ⟨h.undone, fun id tenant hi j hj => ?_, fun id tenant hi hp => ?_⟩ h.ids
  · show j ∈ todo ∨ (s.setMade saga.target k (some t)).made saga.target j ≠ none
    rw [hself]
    split
    · exact Or.inr (some_ne_none _)
    · rename_i hne
      exact (hall j hj).imp_left fun hm => (mem_cons.1 hm).resolve_left hne
  · refine (hself j).trans ?_
    split
    · rfl
    · rename_i hne
      exact hown j ((mem_cons.1 hj).resolve_left hne)
  · have he := setMade_of_ne (s := s) (k := k) (some t) (hfr id tenant hi)
    exact fun hnone => h.topics id tenant hi j hj ((congrFun he j).symm.trans hnone)
  · obtain ⟨u, slug', todo', made', hu⟩ := h.pending id tenant hi hp
    rcases eq_or_ne u t with rfl | hne
    · cases hcall.symm.trans hu
      exact ⟨u, slug', todo, k :: made, update_self ..⟩
    · exact ⟨u, slug', todo', made', (update_of_ne hne ..).trans hu⟩

theorem step_make (ha : (s.calls t).tenant ≠ none → ok = true) (hs : step s (.make t ok) = some s') : Inv s' := by
  simp only [step] at hs
  split at hs
  · rename_i saga k todo made hcall
    obtain rfl := some.inj hs
    rw [hcall] at ha
    obtain ⟨hall, hsub, hn, hown, hfree⟩ : CallOk s t (.making saga (k :: todo) made) := h.call hcall
    cases ok with
    | false => exact h.fail hcall (by_contra fun hne => Bool.false_ne_true (ha hne))
    | true =>
      cases hk : s.made saga.target k with
      | none => exact h.made_new hcall hk
      | some maker =>
        refine h.setCall hcall (Or.inl ⟨rfl, rfl⟩)
          ⟨fun j hj => ?_, fun j hj => hsub (mem_cons_of_mem _ hj), hn, hown, hfree⟩ fun id slug todo' made' he => ?_
        · rcases hall j hj with hm | hm
          · rcases mem_cons.1 hm with rfl | hm
            · exact Or.inr (hk ▸ some_ne_none _)
            · exact Or.inl hm
          · exact Or.inr hm
        · cases he
          exact ⟨todo, made, rfl⟩
  · cases hs

theorem Inv.insert (hcall : s.calls t = .making (.create slug) [] made) : Inv ((s.store (.create slug)).setCall t .idle) := by
  obtain ⟨hall, -, -, -, -⟩ : CallOk s t (.making (.create slug) [] made) := h.call hcall
  have hrow : ∀ {j tenant}, (s.store (.create slug)).tenants j = some tenant →
      tenant = ⟨slug, false, false⟩ ∨ s.tenants j = some tenant := by
    intro j tenant hj
    rcases eq_or_ne j s.nextID with rfl | hne
    · have hj' : update s.tenants s.nextID (some ⟨slug, false, false⟩) s.nextID = some tenant := hj
      rw [update_self] at hj'
      exact Or.inl (some.inj hj').symm
    · exact Or.inr ((update_of_ne hne ..).symm.trans hj)
  refine h.move hcall rfl (Or.inr rfl) (fun x hx => ⟨rfl, fun hf j tenant hj => ?_⟩) trivial
    ⟨h.undone, fun j tenant hj k hk => ?_, fun j tenant hj hp => ?_⟩ fun j hj => ?_
  · rcases hrow hj with rfl | he
    · exact fun heq => hx (heq ▸ rfl)
    · exact hf j tenant he
  · rcases hrow hj with rfl | he
    · refine (hall k ?_).resolve_left not_mem_nil
      cases k with
      | deadLetter => exact mem_cons_self
      | defaultTopic => exact mem_cons_of_mem _ mem_cons_self
      | acl => exact absurd rfl hk
    · exact h.topics j tenant he k hk
  · rcases hrow hj with rfl | he
    · cases hp
    obtain ⟨u, slug', todo, made', hu⟩ := h.pending j tenant he hp
    have hne : u ≠ t := by
      rintro rfl
      cases hcall.symm.trans hu
    exact ⟨u, slug', todo, made', (update_of_ne hne ..).trans hu⟩
  · have hj' : s.nextID + 1 ≤ j := hj
    exact (update_of_ne (by omega) ..).trans (h.ids j (by omega))

theorem Inv.updateSlug (hcall : s.calls t = .making (.rename id slug) [] made) :
    Inv ((s.store (.rename id slug)).setCall t .idle) := by
  obtain ⟨hall, -, -, -, -⟩ : CallOk s t (.making (.rename id slug) [] made) := h.call hcall
  refine h.move hcall rfl (Or.inr rfl) (fun x hx => ⟨rfl, fun hf => hf.setTenant fun old _ heq => hx (heq ▸ rfl)⟩) trivial
    (h.toExact.setTenant hcall (fun old _ k hk => ?_) nofun fun j _ _ _ he => ?_) h.ids_setTenant
  · refine (hall k ?_).resolve_left not_mem_nil
    cases k with
    | deadLetter => exact mem_cons_of_mem _ mem_cons_self
    | defaultTopic => exact mem_cons_of_mem _ (mem_cons_of_mem _ mem_cons_self)
    | acl => exact mem_cons_self
  · cases he
    rfl

theorem step_commit (ha : (s.calls t).tenant ≠ none → ok = true) (hs : step s (.commit t ok) = some s') : Inv s' := by
  simp only [step] at hs
  split at hs
  · rename_i saga made hcall
    obtain rfl := some.inj hs
    rw [hcall] at ha
    cases ok with
    | false => exact h.fail hcall (by_contra fun hne => Bool.false_ne_true (ha hne))
    | true =>
      cases htk : s.taken saga.target with
      | true =>
        cases saga with
        | create slug => exact h.undo_create hcall
        | rename id slug =>
          obtain ⟨-, -, -, -, hfree⟩ : CallOk s t (.making (.rename id slug) [] made) := h.call hcall
          exact absurd (hfree (Or.inr (some_ne_none id))) (not_free htk)
      | false =>
        cases saga with
        | create slug => exact h.insert hcall
        | rename id slug => exact h.updateSlug hcall
  · cases hs

theorem Inv.withdraw (hcall : s.calls t = .undoing saga (k :: todo)) :
    Inv { (s.setMade saga.target k none).setCall t (.undoing saga todo) with undone := s.undone ++ [(t, t)] } := by
  obtain ⟨hc, hn, hown, hfree⟩ : CallOk s t (.undoing saga (k :: todo)) := h.call hcall
  have hfr : Free s saga.target := hfree (cons_ne_nil _ _)
  refine h.move hcall rfl (Or.inl ⟨rfl, rfl⟩)
    (fun x hx => ⟨setMade_of_ne _ fun he => hx (he ▸ rfl), fun hf => hf⟩)
    ⟨hc, hn.of_cons, fun j hj => ?_, fun _ => hfr⟩
    ⟨fun e he => ?_, fun id tenant hi j hj => ?_, fun id tenant hi hp => ?_⟩ h.ids
  · refine setMade_self.trans ((if_neg ?_).trans (hown j (mem_cons_of_mem _ hj)))
    rintro rfl
    exact (nodup_cons.1 hn).1 hj
  · rcases mem_append.1 he with he | he
    · exact h.undone e he
    · cases mem_singleton.1 he
      rfl
  · have he := setMade_of_ne (s := s) (k := k) none (hfr id tenant hi)
    exact fun hnone => h.topics id tenant hi j hj ((congrFun he j).symm.trans hnone)
  · obtain ⟨u, slug', todo', made', hu⟩ := h.pending id tenant hi hp
    have hne : u ≠ t := by
      rintro rfl
      cases hcall.symm.trans hu
    exact ⟨u, slug', todo', made', (update_of_ne hne ..).trans hu⟩

theorem step_undo (hs : step s (.undo t ok) = some s') : Inv s' := by
  simp only [step] at hs
  split at hs
  · rename_i saga k todo hcall
    obtain rfl := some.inj hs
    obtain ⟨hc, hn, hown, hfree⟩ : CallOk s t (.undoing saga (k :: todo)) := h.call hcall
    cases ok with
    | true =>
      rw [hown k mem_cons_self]
      exact h.withdraw hcall
    | false =>
      exact h.setCall hcall (Or.inl ⟨rfl, rfl⟩)
        ⟨hc, hn.of_cons, fun j hj => hown j (mem_cons_of_mem _ hj), fun _ => hfree (cons_ne_nil _ _)⟩ nofun
  · cases hs

theorem step_finish (hs : step s (.finish t ok) = some s') : Inv s' := by
  simp only [step] at hs
  split at hs
  · rename_i slug hcall
    obtain rfl := some.inj hs
    exact h.setCall hcall (Or.inr rfl) trivial nofun
  · rename_i id slug hcall
    have hc : (Saga.rename id slug).tenant = none := (h.call hcall).1
    cases hc
  · cases hs

theorem Inv.step {a : Act} (ha : Alone s a) (hs : step s a = some s') : Inv s' := by
  cases a with
  | create t slug =>
    simp only [Sagas.step] at hs
    split at hs
    · rename_i hcall
      obtain rfl := some.inj hs
      refine h.start hcall (fun x hx u => ?_) (fun j hj => nomatch hj)
        ⟨fun k hk => Or.inl hk, Subset.refl _, nodup_nil, fun k hk => (nomatch hk), fun hx => ?_⟩
      · cases hx
        exact ha u
      · exact absurd hx (by simp [Saga.tenant])
    · cases hs
  | rename t id slug elapsed =>
    have htarget : ∀ x, some slug = some x → ∀ u, (s.calls u).target ≠ some x := fun x hx u => hx ▸ (ha u).1
    have htenant : ∀ j, some id = some j → ∀ u, (s.calls u).tenant ≠ some j := fun j hj u => hj ▸ (ha u).2
    simp only [Sagas.step] at hs
    split at hs
    · rename_i tenant hcall _
      obtain rfl := some.inj hs
      split
      · exact h
      · split
        · split
          · exact h.start hcall htarget htenant trivial
          · exact h
        · exact h.start hcall htarget htenant trivial
    · cases hs
  | lazyClear t ok => exact step_lazyClear h hs
  | check t ok => exact step_check h ha hs
  | lock t ok => exact step_lock h hs
  | make t ok => exact step_make h ha hs
  | commit t ok => exact step_commit h ha hs
  | undo t ok => exact step_undo h hs
  | finish t ok => exact step_finish h hs

end

theorem inv_initial : Inv initial where
  undone _ he := nomatch he
  topics _ _ hi := nomatch hi
  pending _ _ hi := nomatch hi
  ids _ _ := rfl
  targets _ _ _ ht := nomatch ht
  owners _ _ _ ht := nomatch ht
  calls _ := trivial

/-! ## Results -/

/-- **A saga that fails undoes only what it made**, active tenants have both topics, and no tenant is left pending, if calls for
one slug do not overlap and renames do not fail before the commit. -/
theorem sagas_exact_of_alone (acts : List Act) (s : State) (halone : Along step Alone initial acts)
    (hrun : run step initial acts = some s) : Exact s :=
  (run_invariant_along Inv (fun _ _ _ h ha hs => h.step ha hs) inv_initial halone hrun).toExact

def created (t : ℕ) (slug : GoStr) : List Act := [.create t slug, .make t true, .make t true, .commit t true]
def locked (t id : ℕ) (slug : GoStr) : List Act := [.rename t id slug true, .check t true, .lock t true]

/-- A create of `b` that fails and is rolled back while tenant 0 is renamed to `c`. -/
def rolledBack : List Act :=
  [.create 1 (str "b"), .rename 2 0 (str "c") true, .make 1 true, .check 2 true, .make 1 false, .lock 2 true, .make 2 true,
    .undo 1 true, .make 2 true, .make 2 true, .finish 1 true, .commit 2 true]

theorem sagas_exact_of_alone_create : ∃ s, run step initial (created 0 (str "a") ++ rolledBack) = some s ∧
    s.undone = [(1, 1)] ∧ s.tenants 0 = some ⟨str "c", false, true⟩ ∧ Exact s := by
  refine ⟨_, rfl, by decide +kernel, by decide +kernel, sagas_exact_of_alone (created 0 (str "a") ++ rolledBack) _ ?_ rfl⟩
  refine ⟨fun u => some_ne_none _ |>.symm, fun _ => rfl, fun _ => rfl, fun _ => rfl, fun u => ?_, fun u => ?_, fun _ => rfl, rfl,
    fun hrename => absurd rfl hrename, trivial, fun _ => rfl, trivial, fun _ => rfl, fun _ => rfl, trivial, fun _ => rfl, trivial⟩
  · rcases u with _ | u
    · decide
    · exact some_ne_none _ |>.symm
  · rcases u with _ | _ | u
    · decide
    · decide
    · exact ⟨some_ne_none _ |>.symm, some_ne_none _ |>.symm⟩

/-- **Bug**: the tenant `b` is created after a rename to `b` has looked the slug up; the rename's compensation deletes its
topics. An error of `CreateTopicACLs` leaves a tenant pending. -/
theorem rename_undoes_others :
    (∃ s, run step initial (created 0 (str "a") ++ locked 1 0 (str "b") ++ created 2 (str "b") ++
        [.make 1 true, .make 1 true, .make 1 true, .commit 1 true, .undo 1 true, .undo 1 true, .undo 1 true, .finish 1 true]) =
        some s ∧ s.undone = [(1, 1), (1, 2), (1, 2)] ∧ s.tenants 1 = some ⟨str "b", false, false⟩ ∧
      s.made (str "b") .deadLetter = none ∧ s.made (str "b") .defaultTopic = none ∧ ¬Exact s) ∧
    ∃ s, run step initial (created 0 (str "a") ++ locked 1 0 (str "b") ++ [.make 1 false]) = some s ∧
      s.tenants 0 = some ⟨str "a", true, false⟩ ∧ s.calls 0 = .idle ∧ s.calls 1 = .idle := by
  refine ⟨⟨_, rfl, by decide +kernel, by decide +kernel, by decide +kernel, by decide +kernel, fun h => ?_⟩,
    ⟨_, rfl, by decide +kernel, by decide +kernel, by decide +kernel⟩⟩
  have hbad := h.undone (1, 2) (by decide +kernel)
  revert hbad
  decide

end Sukko.Provisioning.Sagas
