import Sukko.Lib.Slots
import Sukko.Orchestration.ShardTenants
/-
# The books of the shards and of the bus balance

Every channel registered with the bus belongs to one owner, a tenant entry or a call in flight, and every reference of an entry
to a connected client or to a call that is about to return (`Balanced`). Each statement moves one item.
-/

namespace Sukko.Orchestration.ShardTenants
open List Function Option

open Broadcast (Bus Chan Scope CountInv)
open Replica Steps Call
variable {n : Nat} {clients : List (Fin n × GoStr)}

structure Balanced (s : State n) : Prop where
  count : CountInv s.bus
  fresh : ∀ t, (s.bus.tenantSubscribers t).Nodup ∧ ∀ ch ∈ s.bus.tenantSubscribers t, ch < s.bus.chans
  registered : ∀ t, (s.bus.tenantSubscribers t).Perm (s.held t ++ s.calls.filterMap (Call.owns t))
  entryBack : ∀ sh t e, s.shards sh t = some e → s.bus.returned e.ch = true
  callBack : ∀ c ∈ s.calls, ∀ ch ∈ c.settled, s.bus.returned ch = true
  refs : ∀ sh t, s.refCount sh t = s.connected.count (sh, t) + s.calls.countP (Call.pending sh t)
  positive : ∀ sh t e, s.shards sh t = some e → 1 ≤ e.refCount
  forwarded : ∀ sh t, (s.forwarders sh t ++ s.calls.filterMap (Call.starts sh t)).Perm
    ((s.shards sh t).map TenantEntry.ch).toList
  cancelled : ∀ sh t ch, (sh, t, ch) ∈ s.cancelled →
    ch < s.bus.chans ∧ (s.shards sh t).map TenantEntry.ch ≠ some ch ∧ .waiting sh t ch ∉ s.calls

theorem Balanced.init : Balanced (State.init : State n) where
  count := Broadcast.countInv_init
  fresh t := by simp [State.init, Bus.init]
  registered t := by
    have hh : (State.init : State n).held t = [] := by simp [State.held, State.init, Map.empty]
    rw [hh]
    exact List.Perm.refl _
  entryBack := by simp [State.init, Map.empty]
  callBack := by simp [State.init]
  refs sh t := by simp [State.init, State.refCount, Map.empty]
  positive := by simp [State.init, Map.empty]
  forwarded sh t := by simp [State.init, State.forwarders, Map.empty]
  cancelled := by simp [State.init]

variable {s s' : State n}

theorem Balanced.perm {cs : List (Call n)} (h : Balanced s) (hp : s.calls.Perm cs) :
    Balanced { s with calls := cs } where
  count := h.count
  fresh := h.fresh
  registered t := (h.registered t).trans ((hp.filterMap _).append_left _)
  entryBack := h.entryBack
  callBack c hc := h.callBack c (hp.mem_iff.2 hc)
  refs sh t := by
    have := h.refs sh t
    rw [hp.countP_eq] at this
    exact this
  positive := h.positive
  forwarded sh t := ((hp.filterMap _).append_left _).symm.trans (h.forwarded sh t)
  cancelled sh t ch hx := by
    obtain ⟨hlt, he, hcl⟩ := h.cancelled sh t ch hx
    exact ⟨hlt, he, fun hm => hcl (hp.mem_iff.2 hm)⟩

/-! ## Entries -/

section
variable (s : State n) (sh : Fin n) (t : GoStr) (o : Option TenantEntry)

@[simp] theorem bus_setEntry :
    (s.setEntry sh t o).bus = s.bus := rfl

@[simp] theorem connected_setEntry :
    (s.setEntry sh t o).connected = s.connected := rfl

@[simp] theorem calls_setEntry :
    (s.setEntry sh t o).calls = s.calls := rfl

theorem shards_setEntry :
    (s.setEntry sh t o).shards sh t = o := by
  simp [State.setEntry]

end

variable {sh sh' : Fin n} {t t' : GoStr}

section
variable (s : State n)

theorem shards_setEntry_of_ne (o : Option TenantEntry) (hne : ¬(sh = sh' ∧ t = t')) :
    (s.setEntry sh t o).shards sh' t' = s.shards sh' t' := by
  simp only [State.setEntry]
  by_cases hsh : sh = sh'
  · subst hsh
    have ht : t' ≠ t := fun ht => hne ⟨rfl, ht.symm⟩
    rw [update_self, update_of_ne ht]
  · rw [update_of_ne (Ne.symm hsh)]

theorem held_setEntry (sh : Fin n) (t : GoStr) (o : Option TenantEntry) :
    ∃ rest, (s.held t).Perm (((s.shards sh t).map TenantEntry.ch).toList ++ rest) ∧
      ((s.setEntry sh t o).held t).Perm ((o.map TenantEntry.ch).toList ++ rest) := by
  have hf : (fun sh' => ((s.setEntry sh t o).shards sh' t).map TenantEntry.ch) =
      Function.update (fun sh' => (s.shards sh' t).map TenantEntry.ch) sh (o.map TenantEntry.ch) := by
    funext sh'
    by_cases hsh : sh' = sh
    · subst hsh
      rw [shards_setEntry, update_self]
    · rw [update_of_ne hsh, shards_setEntry_of_ne s o (fun h => hsh h.1.symm)]
  rw [State.held, State.held, hf]
  exact Slots.contents_exchange (fun sh' => (s.shards sh' t).map TenantEntry.ch) sh (o.map TenantEntry.ch)

theorem held_setEntry_of_ne (sh : Fin n) (o : Option TenantEntry) (ht : t' ≠ t) :
    (s.setEntry sh t o).held t' = s.held t' := by
  simp only [State.held, shards_setEntry_of_ne s o (fun h : _ ∧ t = t' => ht h.2.symm)]

theorem held_recount {e : TenantEntry} (he : s.shards sh t = some e) (k : Int) (t' : GoStr) :
    ((s.setEntry sh t (some { e with refCount := k })).held t').Perm (s.held t') := by
  by_cases ht : t' = t
  · subst ht
    obtain ⟨rest, hold, hn⟩ := held_setEntry s sh t' (some { e with refCount := k })
    rw [he] at hold
    exact hn.trans hold.symm
  · rw [held_setEntry_of_ne s sh _ ht]

theorem refCount_setEntry (sh : Fin n) (t : GoStr) (o : Option TenantEntry) :
    (s.setEntry sh t o).refCount sh t = o.elim 0 TenantEntry.refCount := by
  rw [State.refCount, shards_setEntry]

theorem refCount_setEntry_of_ne (o : Option TenantEntry) (hne : ¬(sh = sh' ∧ t = t')) :
    (s.setEntry sh t o).refCount sh' t' = s.refCount sh' t' := by
  rw [State.refCount, shards_setEntry_of_ne s o hne, State.refCount]

end

/-! ## Channels in the books -/

theorem forall_entry_setEntry {P : TenantEntry → Prop} (hold : ∀ sh t e, s.shards sh t = some e → P e)
    {o : Option TenantEntry} (hn : ∀ e ∈ o, P e) : ∀ sh' t' e', (s.setEntry sh t o).shards sh' t' = some e' → P e' := by
  intro sh' t' e' he'
  by_cases hk : sh = sh' ∧ t = t'
  · obtain ⟨rfl, rfl⟩ := hk
    exact hn e' ((shards_setEntry s sh t o).symm.trans he')
  · exact hold sh' t' e' ((shards_setEntry_of_ne s o hk).symm.trans he')

theorem mem_held {ch : Chan} : ch ∈ s.held t ↔ ∃ sh e, s.shards sh t = some e ∧ e.ch = ch := by
  simp only [State.held, mem_filterMap, mem_finRange, true_and, map_eq_some_iff]

namespace Balanced
variable {s : State n} {c : Call n} {ch : Chan} {cs : List (Call n)} {e : TenantEntry} {sh : Fin n} {t : GoStr}

section
variable (h : Balanced s)
include h

theorem mem_registry_of_entry (he : s.shards sh t = some e) : e.ch ∈ s.bus.tenantSubscribers t :=
  (h.registered t).mem_iff.2 (mem_append_left _ (mem_held.2 ⟨sh, e, he, rfl⟩))

theorem mem_registry_of_call (hc : c ∈ s.calls) (ho : c.owns t = some ch) : ch ∈ s.bus.tenantSubscribers t :=
  (h.registered t).mem_iff.2 (mem_append_right _ (mem_filterMap.2 ⟨c, hc, ho⟩))

theorem entry_ne_owned (he : s.shards sh t = some e) (hc : c ∈ s.calls) : c.owns t ≠ some e.ch := by
  intro ho
  have hn := (h.registered t).nodup_iff.1 (h.fresh t).1
  have hd := (nodup_append.1 hn).2.2
  exact hd e.ch (mem_held.2 ⟨sh, e, he, rfl⟩) e.ch (mem_filterMap.2 ⟨c, hc, ho⟩) rfl

theorem entry_of_pending (hp : 0 < s.connected.count (sh, t) + s.calls.countP (pending sh t)) :
    ∃ e, s.shards sh t = some e := by
  have hr := h.refs sh t
  cases he : s.shards sh t with
  | some e => exact ⟨e, rfl⟩
  | none =>
    rw [State.refCount, he] at hr
    simp only [elim_none] at hr
    omega

/-! ## Statements that change a reference count -/

theorem recount (he : s.shards sh t = some e) {k : Int} (hk : 1 ≤ k)
    (how : ∀ t', cs.filterMap (owns t') = s.calls.filterMap (owns t'))
    (hs : ∀ sh' t', cs.filterMap (starts sh' t') = s.calls.filterMap (starts sh' t'))
    (hb : ∀ c ∈ cs, ∀ ch ∈ c.settled, s.bus.returned ch = true)
    (hw : ∀ sh' t' ch, .waiting sh' t' ch ∈ cs → .waiting sh' t' ch ∈ s.calls)
    (hsm : k = clients.count (sh, t) + cs.countP (pending sh t))
    (ho : ∀ sh' t', ¬(sh = sh' ∧ t = t') → clients.count (sh', t') + cs.countP (pending sh' t') =
      s.connected.count (sh', t') + s.calls.countP (pending sh' t')) :
    Balanced { s.setEntry sh t (some { e with refCount := k }) with connected := clients, calls := cs } where
  count := h.count
  fresh := h.fresh
  registered t' := by
    refine (h.registered t').trans ?_
    rw [← how]
    exact (held_recount s he k t').symm.append_right _
  entryBack := by
    refine forall_entry_setEntry h.entryBack fun e' he' => ?_
    cases he'
    exact h.entryBack sh t e he
  callBack := hb
  refs sh' t' := by
    by_cases hky : sh = sh' ∧ t = t'
    · obtain ⟨rfl, rfl⟩ := hky
      exact (refCount_setEntry s sh t _).trans hsm
    · refine (refCount_setEntry_of_ne s _ hky).trans ?_
      have := ho sh' t' hky
      rw [h.refs sh' t']
      simp only
      omega
  positive := by
    refine forall_entry_setEntry h.positive fun e' he' => ?_
    cases he'
    exact hk
  forwarded sh' t' := by
    have hch : ((s.setEntry sh t (some { e with refCount := k })).shards sh' t').map TenantEntry.ch =
        (s.shards sh' t').map TenantEntry.ch := by
      by_cases hky : sh = sh' ∧ t = t'
      · obtain ⟨rfl, rfl⟩ := hky
        rw [shards_setEntry, he]
        rfl
      · rw [shards_setEntry_of_ne s _ hky]
    have hold := h.forwarded sh' t'
    rw [← hs, ← hch] at hold
    exact hold
  cancelled sh' t' ch hx := by
    obtain ⟨hlt, hen, hc⟩ := h.cancelled sh' t' ch hx
    refine ⟨hlt, ?_, fun hm => hc (hw sh' t' ch hm)⟩
    by_cases hky : sh = sh' ∧ t = t'
    · obtain ⟨rfl, rfl⟩ := hky
      rw [he] at hen
      simpa [State.setEntry] using hen
    · simpa [shards_setEntry_of_ne s _ hky] using hen

/-! ## The statements of a connect -/

theorem install (hcl : s.calls = .waiting sh t ch :: cs) (hn : s.shards sh t = none)
    (hrt : s.bus.returned ch = true) : Balanced { s.setEntry sh t (some ⟨ch, 1⟩) with calls := .launching sh t ch :: cs } where
  count := h.count
  fresh := h.fresh
  registered t' := by
    have hold := h.registered t'
    rw [hcl] at hold
    by_cases ht : t' = t
    · subst ht
      obtain ⟨rest, hh, hhl⟩ := held_setEntry s sh t' (some ⟨ch, 1⟩)
      rw [hn] at hh
      have ho : (waiting sh t' ch).owns t' = some ch := by simp [owns]
      rw [filterMap_cons_some ho] at hold
      have hm : (s.held t' ++ ch :: cs.filterMap (owns t')).Perm
          ((s.setEntry sh t' (some ⟨ch, 1⟩)).held t' ++ cs.filterMap (owns t')) :=
        perm_middle.trans ((((hh.cons ch).trans hhl.symm)).append_right _)
      exact hold.trans hm
    · have ho : (waiting sh t ch).owns t' = none := by simp [owns, Ne.symm ht]
      rw [filterMap_cons_none ho, ← held_setEntry_of_ne s sh (some ⟨ch, 1⟩) ht] at hold
      exact hold
  entryBack := by
    refine forall_entry_setEntry h.entryBack fun e' he' => ?_
    cases he'
    exact hrt
  callBack := forall_mem_cons.2 ⟨by simp [settled], fun c hc => h.callBack c (by simp [hcl, hc])⟩
  refs sh' t' := by
    have hr := h.refs sh' t'
    rw [hcl, countP_cons] at hr
    by_cases hky : sh = sh' ∧ t = t'
    · obtain ⟨rfl, rfl⟩ := hky
      refine (refCount_setEntry s sh t _).trans ?_
      rw [State.refCount, hn] at hr
      simp only [elim_none, elim_some, countP_cons, pending, connected_setEntry, and_self,
        decide_true, if_true, Bool.false_eq_true, if_false] at hr ⊢
      omega
    · refine (refCount_setEntry_of_ne s _ hky).trans (hr.trans ?_)
      simp [pending, hky]
  positive := by
    refine forall_entry_setEntry h.positive fun e' he' => ?_
    cases he'
    exact Int.le_refl 1
  forwarded sh' t' := by
    have hold := h.forwarded sh' t'
    rw [hcl, filterMap_cons_none (by rfl)] at hold
    by_cases hky : sh = sh' ∧ t = t'
    · obtain ⟨rfl, rfl⟩ := hky
      have hnw : ((s.setEntry sh t (some ⟨ch, 1⟩)).shards sh t).map TenantEntry.ch = some ch := by
        rw [shards_setEntry]
        rfl
      have hs : (launching sh t ch).starts sh t = some ch := by simp [starts]
      rw [hn] at hold
      simp only [hnw, filterMap_cons_some hs]
      exact perm_middle.trans (hold.cons ch)
    · have hs : (launching sh t ch).starts sh' t' = none := by simp [starts, hky]
      simp only [filterMap_cons_none hs, shards_setEntry_of_ne s _ hky]
      exact hold
  cancelled sh' t' ch' hx := by
    obtain ⟨hlt, he, hca⟩ := h.cancelled sh' t' ch' hx
    refine ⟨hlt, ?_, fun hmm => ?_⟩
    · by_cases hky : sh = sh' ∧ t = t'
      · obtain ⟨rfl, rfl⟩ := hky
        rw [shards_setEntry]
        intro heq
        obtain rfl : ch = ch' := by simpa using heq
        exact hca (by simp [hcl])
      · rw [shards_setEntry_of_ne s _ hky]
        exact he
    · have hcs : .waiting sh' t' ch' ∈ cs := by simpa using hmm
      exact hca (by simp [hcl, hcs])

end

theorem forwarders_launch (s : State n) (sh : Fin n) (t : GoStr) (ch : Chan) (hl : (sh, t, ch) ∉ s.cancelled)
    (sh' : Fin n) (t' : GoStr) :
    ({ s with launched := (sh, t, ch) :: s.launched } : State n).forwarders sh' t' =
      (if sh = sh' ∧ t = t' then [ch] else []) ++ s.forwarders sh' t' := by
  simp only [State.forwarders, filterMap_cons]
  by_cases hky : sh = sh' ∧ t = t'
  · obtain ⟨rfl, rfl⟩ := hky
    simp [hl]
  · simp only [hky, if_false, nil_append]
    have ho : ¬(sh = sh' ∧ t = t' ∧ (sh, t, ch) ∉ s.cancelled) := fun hk => hky ⟨hk.1, hk.2.1⟩
    rw [if_neg ho]

theorem settled_owns (hc : c.settled = some ch) : ∃ t, c.owns t = some ch := by
  cases c with
  | rollingBack sh t made | dropping sh t made => exact ⟨t, by simpa [owns, settled] using hc⟩
  | _ => simp [settled] at hc

section
variable (h : Balanced s)
include h

theorem launch (hcl : s.calls = .launching sh t ch :: cs) : Balanced { s with
      calls := cs
      launched := (sh, t, ch) :: s.launched
      connected := (sh, t) :: s.connected } := by
  have he : (s.shards sh t).map TenantEntry.ch = some ch := by
    have hold := h.forwarded sh t
    have hs : (launching sh t ch).starts sh t = some ch := by simp [starts]
    rw [hcl, filterMap_cons_some hs] at hold
    simpa using hold.mem_iff.1 (mem_append_right _ mem_cons_self)
  have hlv : (sh, t, ch) ∉ s.cancelled := fun hx => (h.cancelled sh t ch hx).2.1 he
  refine ⟨h.count, h.fresh, fun t' => ?_, h.entryBack, fun c hc => h.callBack c (by simp [hcl, hc]), fun sh' t' => ?_,
    h.positive, fun sh' t' => ?_, fun sh' t' ch' hx => ?_⟩
  · have hold := h.registered t'
    rw [hcl, filterMap_cons_none (by rfl)] at hold
    exact hold
  · have hr := h.refs sh' t'
    rw [hcl, countP_cons] at hr
    refine hr.trans ?_
    by_cases hky : sh = sh' ∧ t = t'
    · obtain ⟨rfl, rfl⟩ := hky
      simp only [pending, and_self, decide_true, if_true, count_cons_self]
      omega
    · have hne : (sh, t) ≠ (sh', t') := fun hk => hky (Prod.mk.inj hk)
      simp [pending, hky, count_cons_of_ne hne]
  · have hold := h.forwarded sh' t'
    rw [hcl] at hold
    have hl : ((if sh = sh' ∧ t = t' then [ch] else []) ++ s.forwarders sh' t' ++ cs.filterMap (starts sh' t')).Perm
          (s.forwarders sh' t' ++ (launching sh t ch :: cs).filterMap (starts sh' t')) := by
      by_cases hky : sh = sh' ∧ t = t'
      · obtain ⟨rfl, rfl⟩ := hky
        have hs : (launching sh t ch).starts sh t = some ch := by simp [starts]
        rw [filterMap_cons_some hs]
        simp only [and_self, if_true, cons_append]
        exact perm_middle.symm
      · have hs : (launching sh t ch).starts sh' t' = none := by simp [starts, hky]
        rw [filterMap_cons_none hs]
        simp [hky]
    rw [← forwarders_launch s sh t ch hlv sh' t'] at hl
    exact hl.trans hold
  · obtain ⟨hlt, hen, hca⟩ := h.cancelled sh' t' ch' hx
    exact ⟨hlt, hen, fun hm => hca (by simp [hcl, hm])⟩

theorem unowned (ho : ∀ t, cs.filterMap (owns t) = s.calls.filterMap (owns t))
    (hs : ∀ sh t, cs.filterMap (starts sh t) = s.calls.filterMap (starts sh t))
    (hb : ∀ c ∈ cs, ∀ ch ∈ c.settled, s.bus.returned ch = true)
    (hw : ∀ sh t ch, .waiting sh t ch ∈ cs → .waiting sh t ch ∈ s.calls)
    (hr : ∀ sh t, clients.count (sh, t) + cs.countP (pending sh t) =
      s.connected.count (sh, t) + s.calls.countP (pending sh t)) :
    Balanced { s with calls := cs, connected := clients } where
  count := h.count
  fresh := h.fresh
  registered t := by
    have hold := h.registered t
    rw [← ho] at hold
    exact hold
  entryBack := h.entryBack
  callBack := hb
  refs sh t := by
    have := hr sh t
    refine (h.refs sh t).trans ?_
    simp only
    omega
  positive := h.positive
  forwarded sh t := by
    have hold := h.forwarded sh t
    rw [← hs] at hold
    exact hold
  cancelled sh t ch hx := by
    obtain ⟨hlt, he, hc⟩ := h.cancelled sh t ch hx
    exact ⟨hlt, he, fun hm => hc (hw sh t ch hm)⟩

theorem entry_lt (he : s.shards sh t = some e) : e.ch < s.bus.chans :=
  (h.fresh t).2 _ (h.mem_registry_of_entry he)

theorem settled_lt (hc : c ∈ s.calls) (hset : c.settled = some ch) : ch < s.bus.chans := by
  obtain ⟨t, ho⟩ := settled_owns hset
  exact (h.fresh t).2 _ (h.mem_registry_of_call hc ho)

theorem subscribe (hcl : s.calls = .subscribing sh t :: cs) :
    Balanced { s with bus := s.bus.openCall (.tenant t), calls := .waiting sh t s.bus.chans :: cs } where
  count := h.count.opened (.tenant t)
  fresh t' := by
    by_cases ht : t' = t
    · subst ht
      simp only [Bus.openCall, Bus.setEntries, Bus.entries, update_self]
      refine ⟨(h.fresh t').1.append (nodup_singleton _) fun ch hold hn => ?_, fun ch hch => ?_⟩
      · have := (h.fresh t').2 ch hold
        rw [mem_singleton.1 hn] at this
        exact Nat.lt_irrefl _ this
      · rcases mem_append.1 hch with hold | hn
        · exact Nat.lt_succ_of_lt ((h.fresh t').2 ch hold)
        · rw [mem_singleton.1 hn]
          exact Nat.lt_succ_self _
    · simp only [Bus.openCall, Bus.setEntries, update_of_ne ht]
      exact ⟨(h.fresh t').1, fun ch hch => Nat.lt_succ_of_lt ((h.fresh t').2 ch hch)⟩
  registered t' := by
    have hold := h.registered t'
    rw [hcl, filterMap_cons_none (by rfl)] at hold
    by_cases ht : t' = t
    · subst ht
      have ho : (waiting sh t' s.bus.chans).owns t' = some s.bus.chans := by simp [owns]
      simp only [Bus.openCall, Bus.setEntries, Bus.entries, update_self, filterMap_cons_some ho]
      exact (perm_append_singleton _ _).trans ((hold.cons _).trans perm_middle.symm)
    · have ho : (waiting sh t s.bus.chans).owns t' = none := by simp [owns, Ne.symm ht]
      simp only [Bus.openCall, Bus.setEntries, update_of_ne ht, filterMap_cons_none ho]
      exact hold
  entryBack sh' t' e he := openCall_returned _ (h.entry_lt he) (h.entryBack sh' t' e he)
  callBack c hc ch hset := by
    rcases mem_cons.1 hc with rfl | hm
    · simp [settled] at hset
    · have hin : c ∈ s.calls := by simp [hcl, hm]
      exact openCall_returned _ (h.settled_lt hin hset) (h.callBack c hin ch hset)
  refs sh' t' := by
    have hr := h.refs sh' t'
    rw [hcl] at hr
    refine hr.trans ?_
    simp [pending]
  positive := h.positive
  forwarded sh' t' := by
    have hold := h.forwarded sh' t'
    rw [hcl, filterMap_cons_none (by rfl)] at hold
    exact hold
  cancelled sh' t' ch hx := by
    obtain ⟨hlt, hen, hca⟩ := h.cancelled sh' t' ch hx
    refine ⟨Nat.lt_succ_of_lt hlt, hen, fun hm => ?_⟩
    rcases mem_cons.1 hm with heq | hcs
    · obtain ⟨_, _, rfl⟩ : sh' = sh ∧ t' = t ∧ ch = s.bus.chans := by simpa using heq
      exact Nat.lt_irrefl _ hlt
    · exact hca (by simp [hcl, hcs])

end

/-! ## Unsubscribe -/

theorem unsubscribe (h : Balanced s) (rest : List (Call n)) (hc : s.calls = c :: cs) (hset : c.settled = some ch)
    (how : c.owns t = some ch) (ho : ∀ t', t' ≠ t → c.owns t' = none) (hs : ∀ sh t', c.starts sh t' = none)
    (hrs : ∀ r ∈ rest, (∀ t', r.owns t' = none) ∧ (∀ sh t', r.starts sh t' = none) ∧ r.settled = none)
    (hpn : ∀ sh t', rest.countP (pending sh t') = [c].countP (pending sh t')) :
    Balanced { s with bus := s.bus.orSame (s.bus.unsubscribe t ch), calls := rest ++ cs } := by
  have hin : c ∈ s.calls := by simp [hc]
  have hmm : ch ∈ s.bus.tenantSubscribers t := h.mem_registry_of_call hin how
  have hrt : s.bus.returned ch = true := h.callBack c hin ch hset
  have hbs : s.bus.orSame (s.bus.unsubscribe t ch) = { s.bus.setEntries (.tenant t) ((s.bus.entries (.tenant t)).erase ch) with
        callers := .uncounting (.tenant t) :: s.bus.callers } := by
    rw [Bus.unsubscribe, Bus.closeCall, if_pos (show ch ∈ s.bus.entries (.tenant t) from hmm)]
    rfl
  have hnw : ∀ t', rest.filterMap (owns t') = [] := fun t' =>
    filterMap_eq_nil_iff.2 fun r hr => (hrs r hr).1 t'
  have hn : ∀ sh t', rest.filterMap (starts sh t') = [] := fun sh t' =>
    filterMap_eq_nil_iff.2 fun r hr => (hrs r hr).2.1 sh t'
  have hb : ∀ ch', s.bus.returned ch' = true → (s.bus.orSame (s.bus.unsubscribe t ch)).returned ch' = true :=
    fun ch' => closeCall_returned (.tenant t) ch
  have hsb : ∀ c' ∈ cs, c' ∈ s.calls := fun c' hc' => by simp [hc, hc']
  refine ⟨?_, fun t' => ?_, fun t' => ?_, fun sh t' e he => hb _ (h.entryBack sh t' e he), fun c' hc' ch' hs' => ?_,
    fun sh t' => ?_, h.positive, fun sh t' => ?_, fun sh t' ch' hx => ?_⟩
  · rw [hbs]
    exact h.count.closed hrt hmm
  · rw [hbs]
    by_cases ht : t' = t
    · subst ht
      simp only [Bus.setEntries, Bus.entries, update_self]
      exact ⟨(h.fresh t').1.erase _, fun ch' hch => (h.fresh t').2 ch' (mem_of_mem_erase hch)⟩
    · simp only [Bus.setEntries, update_of_ne ht]
      exact h.fresh t'
  · rw [hbs]
    have hold := h.registered t'
    rw [hc] at hold
    simp only [filterMap_append, hnw, nil_append]
    by_cases ht : t' = t
    · subst ht
      rw [filterMap_cons_some how] at hold
      simp only [Bus.setEntries, Bus.entries, update_self]
      have her := (hold.trans perm_middle).erase ch
      rwa [erase_cons_head] at her
    · rw [filterMap_cons_none (ho t' ht)] at hold
      simp only [Bus.setEntries, update_of_ne ht]
      exact hold
  · rcases mem_append.1 hc' with hr | hold
    · simp [(hrs c' hr).2.2] at hs'
    · exact hb _ (h.callBack c' (hsb c' hold) ch' hs')
  · have hrf := h.refs sh t'
    have hp := hpn sh t'
    rw [hc] at hrf
    rw [countP_cons] at hrf
    simp only [countP_cons, countP_nil] at hp
    refine hrf.trans ?_
    simp only [countP_append]
    omega
  · have hold := h.forwarded sh t'
    rw [hc, filterMap_cons_none (hs sh t')] at hold
    simp only [filterMap_append, hn, nil_append]
    exact hold
  · obtain ⟨hlt, hen, hcl⟩ := h.cancelled sh t' ch' hx
    refine ⟨?_, hen, fun hm => ?_⟩
    · rw [hbs]
      exact hlt
    · rcases mem_append.1 hm with hr | hold
      · have hno := (hrs _ hr).1 t'
        simp [owns] at hno
      · exact hcl (hsb _ hold)

/-! ## The last disconnect -/

theorem forwarders_cancel (s : State n) (sh : Fin n) (t : GoStr) (ch : Chan) (sh' : Fin n) (t' : GoStr) :
    ({ s with cancelled := (sh, t, ch) :: s.cancelled } : State n).forwarders sh' t' =
      if sh = sh' ∧ t = t' then (s.forwarders sh' t').filter (· ≠ ch) else s.forwarders sh' t' := by
  by_cases hk : sh = sh' ∧ t = t'
  · obtain ⟨rfl, rfl⟩ := hk
    simp only [State.forwarders, and_self, if_true, filter_filterMap]
    refine filterMap_congr fun f _ => ?_
    obtain ⟨fsh, ft, fch⟩ := f
    by_cases hf : fsh = sh ∧ ft = t
    · obtain ⟨rfl, rfl⟩ := hf
      by_cases hx : (fsh, ft, fch) ∈ s.cancelled
      · simp [hx]
      · by_cases hc : fch = ch
        · subst hc
          simp [hx, Option.filter]
        · simp [hc, hx, Option.filter]
    · have ho : ∀ p : Prop, ¬(fsh = sh ∧ ft = t ∧ p) := fun p hp => hf ⟨hp.1, hp.2.1⟩
      simp only [if_neg (ho _), filter_none]
  · rw [if_neg hk]
    refine filterMap_congr fun f _ => ?_
    obtain ⟨fsh, ft, fch⟩ := f
    by_cases hf : fsh = sh' ∧ ft = t'
    · obtain ⟨rfl, rfl⟩ := hf
      have hne : (fsh, ft, fch) ≠ (sh, t, ch) := fun heq => hk ⟨congrArg Prod.fst heq.symm,
        congrArg (Prod.fst ∘ Prod.snd) heq.symm⟩
      simp [hne]
    · have ho : ∀ p : Prop, ¬(fsh = sh' ∧ ft = t' ∧ p) := fun p hp => hf ⟨hp.1, hp.2.1⟩
      simp only [if_neg (ho _)]

theorem last_client (h : Balanced s) (hm : (sh, t) ∈ s.connected) (he : s.shards sh t = some e) (hl : e.refCount - 1 ≤ 0) :
    s.connected.count (sh, t) = 1 ∧ s.calls.countP (pending sh t) = 0 ∧ s.calls.filterMap (starts sh t) = [] := by
  have hr := h.refs sh t
  rw [State.refCount, he] at hr
  simp only [elim_some] at hr
  have hcn : 1 ≤ s.connected.count (sh, t) := count_pos_iff.2 hm
  have hz : s.calls.countP (pending sh t) = 0 := by omega
  have hn : s.calls.filterMap (starts sh t) = [] := by
    refine filterMap_eq_nil_iff.2 fun c hc => ?_
    have hp := countP_eq_zero.1 hz c hc
    cases c with
    | launching sh' t' ch => simpa [starts, pending] using hp
    | _ => rfl
  exact ⟨by omega, hz, hn⟩

theorem dropLast (h : Balanced s) (hmm : (sh, t) ∈ s.connected) (he : s.shards sh t = some e) (hl : e.refCount - 1 ≤ 0) :
    Balanced { s.setEntry sh t none with
      connected := s.connected.erase (sh, t)
      cancelled := (sh, t, e.ch) :: s.cancelled
      calls := .dropping sh t e.ch :: s.calls } := by
  obtain ⟨hon, hz, hn⟩ := h.last_client hmm he hl
  refine ⟨h.count, h.fresh, fun t' => ?_, fun sh' t' e' he' => ?_, fun c hc ch hset => ?_, fun sh' t' => ?_,
    fun sh' t' e' he' => ?_, fun sh' t' => ?_, fun sh' t' ch hx => ?_⟩
  · have hold := h.registered t'
    by_cases ht : t' = t
    · subst ht
      obtain ⟨rest, hh, hhl⟩ := held_setEntry s sh t' none
      rw [he] at hh
      have ho : (dropping sh t' e.ch).owns t' = some e.ch := by simp [owns]
      simp only [filterMap_cons_some ho]
      refine hold.trans (List.Perm.trans ?_ perm_middle.symm)
      exact (hh.trans (hhl.symm.cons e.ch)).append_right _
    · have ho : (dropping sh t e.ch).owns t' = none := by simp [owns, Ne.symm ht]
      rw [← held_setEntry_of_ne s sh none ht] at hold
      simp only [filterMap_cons_none ho]
      exact hold
  · exact forall_entry_setEntry h.entryBack (fun _ hnn => by cases hnn) sh' t' e' he'
  · rcases mem_cons.1 hc with rfl | hold
    · obtain rfl : e.ch = ch := by simpa [settled] using hset
      exact h.entryBack sh t e he
    · exact h.callBack c hold ch hset
  · simp only [countP_cons, pending, Bool.false_eq_true, if_false, Nat.add_zero]
    by_cases hky : sh = sh' ∧ t = t'
    · obtain ⟨rfl, rfl⟩ := hky
      refine (refCount_setEntry s sh t none).trans ?_
      rw [count_erase_self]
      simp only [elim_none]
      omega
    · have hne : (sh, t) ≠ (sh', t') := fun heq => hky (Prod.mk.inj heq)
      refine (refCount_setEntry_of_ne s _ hky).trans ?_
      rw [count_erase_of_ne hne.symm]
      exact h.refs sh' t'
  · exact forall_entry_setEntry h.positive (fun _ hnn => by cases hnn) sh' t' e' he'
  · have hold := h.forwarded sh' t'
    have hcn := forwarders_cancel s sh t e.ch sh' t'
    rw [filterMap_cons_none (by rfl)]
    by_cases hky : sh = sh' ∧ t = t'
    · obtain ⟨rfl, rfl⟩ := hky
      rw [hn, append_nil, he] at hold
      obtain hlv : s.forwarders sh t = [e.ch] := perm_singleton.1 hold
      have hnn : ({ s with cancelled := (sh, t, e.ch) :: s.cancelled } : State n).forwarders sh t = [] := by
        rw [hcn, hlv]
        simp
      have hen := shards_setEntry s sh t none
      simp only [hen, hn, append_nil]
      exact List.Perm.of_eq hnn
    · rw [if_neg hky] at hcn
      have hen := shards_setEntry_of_ne s none hky
      simp only [hen]
      rw [← hcn] at hold
      exact hold
  · have hw : .waiting sh' t' ch ∈ dropping sh t e.ch :: s.calls → .waiting sh' t' ch ∈ s.calls := by simp
    rcases mem_cons.1 hx with heq | hold
    · obtain ⟨rfl, rfl, rfl⟩ : sh' = sh ∧ t' = t ∧ ch = e.ch := by simpa using heq
      refine ⟨h.entry_lt he, by rw [shards_setEntry]; simp, fun hm => ?_⟩
      exact h.entry_ne_owned he (hw hm) (by simp [owns])
    · obtain ⟨hlt, hen, hcl⟩ := h.cancelled sh' t' ch hold
      refine ⟨hlt, ?_, fun hm => hcl (hw hm)⟩
      by_cases hky : sh = sh' ∧ t = t'
      · obtain ⟨rfl, rfl⟩ := hky
        rw [shards_setEntry]
        simp
      · rw [shards_setEntry_of_ne s _ hky]
        exact hen

/-! ## Runs -/

theorem others (h : Balanced s) {a : Broadcast.Act} (ha : ofOthers a = true) {b : Bus}
    (hb : Broadcast.step s.bus a = some b) : Balanced { s with bus := b } where
  count := by
    rcases Broadcast.step_cases hb with hcl | hl
    · exact h.count.calls hcl
    · exact h.count.loops hl
  fresh t := by
    obtain ⟨ht, hcn, _⟩ := @others_frame _ _ 0 _ ha hb
    refine ⟨by rw [ht]; exact (h.fresh t).1, fun ch hch => ?_⟩
    rw [ht] at hch
    exact Nat.lt_of_lt_of_le ((h.fresh t).2 ch hch) hcn
  registered t := by
    rw [(@others_frame _ _ 0 _ ha hb).1]
    exact h.registered t
  entryBack sh t e he := (others_frame ha hb).2.2 (h.entry_lt he) (h.entryBack sh t e he)
  callBack c hc ch hset := (others_frame ha hb).2.2 (h.settled_lt hc hset) (h.callBack c hc ch hset)
  refs := h.refs
  positive := h.positive
  forwarded := h.forwarded
  cancelled sh t ch hx := by
    obtain ⟨hlt, hen, hca⟩ := h.cancelled sh t ch hx
    exact ⟨Nat.lt_of_lt_of_le hlt (@others_frame _ _ 0 _ ha hb).2.1, hen, hca⟩

theorem proceed (h : Balanced { s with calls := c :: cs }) (hs : { s with calls := cs }.proceed c = some s') : Balanced s' := by
  cases c with simp only [State.proceed] at hs
  | subscribing sh t =>
    cases hsb : s.bus.subscribe t with simp only [hsb] at hs
    | error err =>
      cases hs
      exact h.unowned (fun _ => rfl) (fun _ _ => rfl) (fun c hc => h.callBack c (mem_cons_of_mem _ hc))
        (fun _ _ _ hm => mem_cons_of_mem _ hm) (fun _ _ => by simp [pending])
    | ok b =>
      cases hs
      obtain rfl : s.bus.openCall (.tenant t) = b := by
        unfold Bus.subscribe at hsb
        split at hsb
        · cases hsb
        split at hsb
        · cases hsb
        exact Except.ok.inj hsb
      exact h.subscribe rfl
  | waiting sh t ch =>
    simp only [ite_none_right_eq_some] at hs
    obtain ⟨hrt, hs⟩ := hs
    cases he : s.shards sh t with simp only [he] at hs
    | none =>
      cases hs
      exact h.install rfl he hrt
    | some e =>
      cases hs
      have hr := h.refs sh t
      rw [State.refCount, he] at hr
      have hp := h.positive sh t e he
      refine h.recount he (by omega) (fun _ => rfl) (fun _ _ => rfl) (fun c hc ch' hset => ?_) (fun _ _ _ hm => ?_) ?_
        (fun sh' t' hky => ?_)
      · rcases mem_cons.1 hc with rfl | hold
        · obtain rfl : ch = ch' := by simpa [settled] using hset
          exact hrt
        · exact h.callBack c (mem_cons_of_mem _ hold) ch' hset
      · exact mem_cons_of_mem _ ((mem_cons.1 hm).resolve_left (by simp))
      · simp only [elim_some, countP_cons, pending, and_self, decide_true, if_true, Bool.false_eq_true,
          if_false, connected_setEntry] at hr ⊢
        omega
      · simp [pending, hky]
  | rollingBack sh t ch =>
    cases hs
    refine h.unsubscribe [.returning sh t] rfl rfl (by simp [owns])
      (fun t' ht => by simp [owns, Ne.symm ht]) (fun _ _ => rfl) (by simp [owns, starts, settled])
      (fun sh' t' => by simp [pending])
  | returning sh t =>
    cases hs
    refine h.unowned (fun _ => rfl) (fun _ _ => rfl) (fun c hc => h.callBack c (mem_cons_of_mem _ hc))
      (fun _ _ _ hm => mem_cons_of_mem _ hm) (fun sh' t' => ?_)
    by_cases hky : sh = sh' ∧ t = t'
    · obtain ⟨rfl, rfl⟩ := hky
      simp only [pending, countP_cons, and_self, decide_true, if_true, count_cons_self]
      omega
    · have hne : (sh, t) ≠ (sh', t') := fun hk => hky (Prod.mk.inj hk)
      simp [pending, hky, count_cons_of_ne hne]
  | launching sh t ch =>
    cases hs
    exact h.launch rfl
  | dropping sh t ch =>
    cases hs
    exact h.unsubscribe [] rfl rfl (by simp [owns]) (fun t' ht => by simp [owns, Ne.symm ht])
      (fun _ _ => rfl) (by simp) (fun sh' t' => by simp [pending])

theorem step (h : Balanced s) {a : Act n} (hs : s.step a = some s') : Balanced s' := by
  cases a with
  | connect sh t =>
    simp only [State.step] at hs
    cases he : s.shards sh t with simp only [he] at hs
    | none =>
      cases hs
      refine h.unowned (fun _ => rfl) (fun _ _ => rfl) ?_ (fun _ _ _ hm => by simpa using hm)
        (fun _ _ => by simp [pending])
      exact forall_mem_cons.2 ⟨by simp [settled], h.callBack⟩
    | some e =>
      cases hs
      have hr := h.refs sh t
      rw [State.refCount, he] at hr
      have hp := h.positive sh t e he
      refine h.recount he (by omega) (fun _ => rfl) (fun _ _ => rfl) h.callBack (fun _ _ _ hm => hm) ?_ (fun sh' t' hky => ?_)
      · simp only [elim_some, count_cons_self, calls_setEntry] at hr ⊢
        omega
      · have hne : (sh, t) ≠ (sh', t') := fun hk => hky (Prod.mk.inj hk)
        rw [count_cons_of_ne hne, calls_setEntry]
  | disconnect sh t =>
    simp only [State.step, ite_none_right_eq_some] at hs
    obtain ⟨hmm, hs⟩ := hs
    have hcn : 0 < s.connected.count (sh, t) := count_pos_iff.2 hmm
    obtain ⟨e, he⟩ := h.entry_of_pending (Nat.add_pos_left hcn _)
    simp only [he] at hs
    by_cases hmr : e.refCount - 1 > 0
    · simp only [if_pos hmr] at hs
      cases hs
      have hr := h.refs sh t
      rw [State.refCount, he] at hr
      refine h.recount he (by omega) (fun _ => rfl) (fun _ _ => rfl) h.callBack (fun _ _ _ hm => hm) ?_ (fun sh' t' hky => ?_)
      · rw [count_erase_self]
        simp only [elim_some] at hr ⊢
        omega
      · have hne : (sh, t) ≠ (sh', t') := fun hk => hky (Prod.mk.inj hk)
        rw [count_erase_of_ne hne.symm]
    · simp only [if_neg hmr] at hs
      cases hs
      exact h.dropLast hmm he (by omega)
  | resume c =>
    simp only [State.step, ite_none_right_eq_some] at hs
    obtain ⟨hc, hs⟩ := hs
    exact (h.perm (perm_cons_erase hc)).proceed hs
  | bus a =>
    simp only [State.step, ite_none_right_eq_some, map_eq_some_iff] at hs
    obtain ⟨ha, b, hb, rfl⟩ := hs
    exact h.others ha hb

end Balanced

theorem run_balanced {as : List (Act n)} {s : State n} (hr : run State.step State.init as = some s) : Balanced s :=
  run_invariant Balanced (fun _ _ _ h hs => h.step hs) .init hr

theorem refCount_of_quiet {b : Bus} (h : CountInv b) (hq : b.callers = []) (t : GoStr) :
    b.refCount (.tenant t) = (b.tenantSubscribers t).length := by
  obtain ⟨counted, hp, hc⟩ := h.counted (.tenant t)
  rw [hq] at hp hc
  simp only [filterMap_nil, append_nil] at hp
  have hl : (b.tenantSubscribers t).length = counted.length := hp.length_eq
  simp only [count_nil] at hc
  omega

/-- **Tenant subscriptions balance** whenever no call is in progress: clients, references, entries, forwarders and the channels
of the bus agree. -/
theorem tenantSubscriptions_balanced (as : List (Act n)) (s : State n) (hrun : run State.step State.init as = some s)
    (hquiet : s.calls = []) (hbus : s.bus.callers = []) (t : GoStr) :
    (∀ sh, s.refCount sh t = s.connected.count (sh, t)) ∧
      (∀ sh, 0 < s.connected.count (sh, t) → ∃ e, s.shards sh t = some e ∧ e.ch ∈ s.bus.tenantSubscribers t ∧
        s.forwarders sh t = [e.ch]) ∧
      (∀ sh, s.connected.count (sh, t) = 0 → s.shards sh t = none ∧ s.forwarders sh t = []) ∧
      ((s.bus.tenantSubscribers t).Nodup ∧ (s.bus.tenantSubscribers t).Perm (s.held t)) ∧
      s.bus.refCount (.tenant t) = ((List.finRange n).filter fun sh => (s.shards sh t).isSome).length := by
  have h := run_balanced hrun
  have hrefs : ∀ sh, s.refCount sh t = s.connected.count (sh, t) := by
    intro sh
    have := h.refs sh t
    simpa [hquiet] using this
  have hforwarded : ∀ sh, (s.forwarders sh t).Perm ((s.shards sh t).map TenantEntry.ch).toList := by
    intro sh
    have := h.forwarded sh t
    simpa [hquiet] using this
  have hregistered : (s.bus.tenantSubscribers t).Perm (s.held t) := by
    have := h.registered t
    simpa [hquiet] using this
  refine ⟨hrefs, fun sh hpos => ?_, fun sh hzero => ?_, ⟨(h.fresh t).1, hregistered⟩, ?_⟩
  · obtain ⟨e, he⟩ := h.entry_of_pending (Nat.add_pos_left hpos _)
    have hone := hforwarded sh
    rw [he] at hone
    exact ⟨e, he, h.mem_registry_of_entry he, perm_singleton.1 hone⟩
  · have hnone : s.shards sh t = none := by
      cases he : s.shards sh t with
      | none => rfl
      | some e =>
        have hpos := h.positive sh t e he
        have hcount := hrefs sh
        rw [State.refCount, he, hzero] at hcount
        simp only [elim_some] at hcount
        omega
    have hempty := hforwarded sh
    rw [hnone] at hempty
    exact ⟨hnone, perm_nil.1 hempty⟩
  · rw [refCount_of_quiet h.count hbus t, hregistered.length_eq, State.held, length_filterMap_eq_countP,
      countP_eq_length_filter]
    simp

def concurrentFirstConnects : List (Act 2) :=
  [.connect 0 (str "acme"), .connect 0 (str "acme"), .resume (.subscribing 0 (str "acme")),
    .resume (.subscribing 0 (str "acme")), .bus (.resume (.counting (.tenant (str "acme")) 0)),
    .bus (.resume (.signalling (some 0))), .bus (.resume (.counting (.tenant (str "acme")) 1)),
    .resume (.waiting 0 (str "acme") 1), .resume (.waiting 0 (str "acme") 0), .resume (.launching 0 (str "acme") 1),
    .resume (.rollingBack 0 (str "acme") 0), .bus (.resume (.uncounting (.tenant (str "acme")))),
    .resume (.returning 0 (str "acme"))]

theorem tenantSubscriptions_balanced_concurrent :
    ∃ s, run State.step State.init concurrentFirstConnects = some s ∧ s.connected.count (0, str "acme") = 2 ∧
      s.refCount 0 (str "acme") = 2 ∧ s.bus.refCount (.tenant (str "acme")) = 1 ∧ s.forwarders 0 (str "acme") = [1] := by
  have hends : (run State.step State.init concurrentFirstConnects).map
      (fun s => (s.calls, s.bus.callers, s.connected.count (0, str "acme"), s.held (str "acme"),
        ((List.finRange 2).filter fun sh => (s.shards sh (str "acme")).isSome).length)) =
      some ([], [], 2, [1], 1) := by decide +kernel
  obtain ⟨s, hrun, hend⟩ := map_eq_some_iff.1 hends
  simp only [Prod.mk.injEq] at hend
  obtain ⟨hcalls, hcallers, hcount, hheld, hshards⟩ := hend
  obtain ⟨hrefs, hpos, _, _, hbus⟩ := tenantSubscriptions_balanced _ s hrun hcalls hcallers (str "acme")
  obtain ⟨e, he, _, hforwarders⟩ := hpos 0 (by omega)
  have hch : e.ch ∈ s.held (str "acme") := mem_held.2 ⟨0, e, he, rfl⟩
  rw [hheld, mem_singleton] at hch
  refine ⟨s, hrun, hcount, ?_, ?_, ?_⟩
  · rw [hrefs, hcount]
    rfl
  · rw [hbus, hshards]
    rfl
  · rw [hforwarders, hch]

end Sukko.Orchestration.ShardTenants
