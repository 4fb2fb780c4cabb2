import Sukko.Broadcast.Valkey
/-
# The callers of the Valkey bus and its reference counts

A call in flight holds its reference or does not: `Counted` ties the counts to the registry entries and to the calls between
two sections.
-/

namespace Sukko.Broadcast
open List Option

/-! ## What a step does -/

inductive Calls (b : Bus) : Bus → Prop where
  | same : Calls b b
  | opened (sc : Scope) : Calls b (b.openCall sc)
  | closed (sc : Scope) (ch : Chan) (hret : b.returned ch = true) (hmem : ch ∈ b.entries sc) :
      Calls b { b.setEntries sc ((b.entries sc).erase ch) with callers := .uncounting sc :: b.callers }
  | resumed (c : Caller) (hc : c ∈ b.callers) : Calls b (b.resume c)

inductive Loops (b : Bus) : Bus → Prop where
  | cancel : Loops b { b with cancelled := true }
  | moved (l : Loop) (hfrom : ∀ p, b.loop ≠ .pass p) (hconv : b.loop ≠ .converge) (hstop : b.loop ≠ .stopped)
      (hto : ∀ p, l ≠ .pass p) : Loops b { b with loop := l }
  | wake (hl : b.loop = .select) : Loops b { b with subWake := false, loop := .converge }
  | retry (hl : b.loop = .select) : Loops b { b with retry := none, loop := .converge }
  | disconnect (hl : b.loop = .select) : Loops b { b.reinitDedicatedClient with loop := .converge }
  | snapshot (hl : b.loop = .converge) : Loops b { b with loop := .pass b.snapshot }
  | missing (p : Pass) (todo : Finset GoStr) (t : GoStr) (ans : Answer) (hl : b.loop = .pass p)
      (hs : p.stage = .missing todo) (ht : t ∈ todo) : Loops b (b.visitMissing p todo t ans)
  | stale (p : Pass) (todo : Finset GoStr) (t : GoStr) (ans : Answer) (hl : b.loop = .pass p)
      (hs : p.stage = .stale todo) (ht : t ∈ todo) : Loops b (b.visitStale p todo t ans)
  | leaveMissing (p : Pass) (todo : Finset GoStr) (hl : b.loop = .pass p) (hs : p.stage = .missing todo)
      (hend : todo = ∅ ∨ p.abort = true ∨ b.cancelled = true) :
      Loops b { b with loop := .pass { p with stage := .stale b.confirmedTenants } }
  | leaveStale (p : Pass) (todo : Finset GoStr) (hl : b.loop = .pass p) (hs : p.stage = .stale todo)
      (hend : todo = ∅ ∨ p.abort = true ∨ b.cancelled = true) :
      Loops b { b with loop := .pass { p with stage := .psubscribe } }
  | psubscribe (p : Pass) (ans : Answer) (hl : b.loop = .pass p) (hs : p.stage = .psubscribe) :
      Loops b (b.psubscribe p ans)
  | punsubscribe (p : Pass) (ans : Answer) (hl : b.loop = .pass p) (hs : p.stage = .punsubscribe) :
      Loops b (b.punsubscribe p ans)
  | finish (p : Pass) (hl : b.loop = .pass p) (hs : p.stage = .finish) : Loops b (b.finish p)

variable {b : Bus} {ch : Chan}

theorem calls_closeCall {sc : Scope} (hr : b.returned ch = true) : Calls b (b.orSame (b.closeCall sc ch)) := by
  unfold Bus.closeCall
  split
  · rename_i hm; exact .closed sc ch hr hm
  · exact .same

theorem calls_subscribe (b : Bus) (t : GoStr) : Calls b (b.orSame (b.subscribe t)) := by
  unfold Bus.subscribe
  split
  · exact .same
  · split
    · exact .same
    · exact .opened _

variable {b' : Bus} {t : GoStr}

theorem loops_visit {p : Pass} {ans : Answer} (hl : b.loop = .pass p) (h : b.visit p t ans = some b') :
    Loops b b' := by
  unfold Bus.visit at h
  split at h
  · cases h
  split at h
  · rename_i todo hs
    obtain ⟨ht, rfl⟩ : t ∈ todo ∧ b.visitMissing p todo t ans = b' := by simpa using h
    exact .missing p todo t ans hl hs ht
  · rename_i todo hs
    obtain ⟨ht, rfl⟩ : t ∈ todo ∧ b.visitStale p todo t ans = b' := by simpa using h
    exact .stale p todo t ans hl hs ht
  · cases h

theorem loops_leave {p : Pass} (hl : b.loop = .pass p) (h : b.leave p = some b') : Loops b b' := by
  unfold Bus.leave at h
  split at h
  · rename_i todo hs
    simp only [Steps.guarded] at h
    obtain ⟨he, rfl⟩ := h
    exact .leaveMissing p todo hl hs he
  · rename_i todo hs
    simp only [Steps.guarded] at h
    obtain ⟨he, rfl⟩ := h
    exact .leaveStale p todo hl hs he
  · cases h

theorem loops_pattern {p : Pass} {ans : Answer} (hl : b.loop = .pass p) (h : b.pattern p ans = some b') :
    Loops b b' := by
  unfold Bus.pattern at h
  split at h
  · rename_i hs; cases h; exact .psubscribe p ans hl hs
  · rename_i hs; cases h; exact .punsubscribe p ans hl hs
  · cases h

theorem step_cases {a : Act} (h : step b a = some b') : Calls b b' ∨ Loops b b' := by
  cases a with simp only [step, Steps.guarded] at h
  | subscribe t => cases h; exact .inl (calls_subscribe b t)
  | subscribeAll => cases h; exact .inl (.opened .all)
  | unsubscribe t ch | unsubscribeAll ch =>
    obtain ⟨hr, rfl⟩ := h
    exact .inl (calls_closeCall hr)
  | resume c =>
    obtain ⟨hc, rfl⟩ := h
    exact .inl (.resumed c hc)
  | run | tick =>
    obtain ⟨hl, rfl⟩ := h
    exact .inr (.moved _ (by simp [hl]) (by simp [hl]) (by simp [hl]) (by simp))
  | cancel => cases h; exact .inr .cancel
  | check =>
    obtain ⟨hl, rfl⟩ := h
    refine .inr (.moved _ (by simp [hl]) (by simp [hl]) (by simp [hl]) fun p => ?_)
    split <;> simp
  | done =>
    obtain ⟨⟨hl, -⟩, rfl⟩ := h
    exact .inr (.moved _ (by simp [hl]) (by simp [hl]) (by simp [hl]) (by simp))
  | disconnect =>
    obtain ⟨hl, rfl⟩ := h
    exact .inr (.disconnect hl)
  | wake =>
    obtain ⟨⟨hl, -⟩, rfl⟩ := h
    exact .inr (.wake hl)
  | retry =>
    obtain ⟨⟨hl, -⟩, rfl⟩ := h
    exact .inr (.retry hl)
  | snapshot =>
    obtain ⟨hl, rfl⟩ := h
    exact .inr (.snapshot hl)
  | visit t ans =>
    obtain ⟨p, hl, h⟩ := bind_eq_some_iff.1 h
    exact .inr (loops_visit (Loop.pass?_eq_some.1 hl) h)
  | leave =>
    obtain ⟨p, hl, h⟩ := bind_eq_some_iff.1 h
    exact .inr (loops_leave (Loop.pass?_eq_some.1 hl) h)
  | pattern ans =>
    obtain ⟨p, hl, h⟩ := bind_eq_some_iff.1 h
    exact .inr (loops_pattern (Loop.pass?_eq_some.1 hl) h)
  | finish =>
    obtain ⟨p, hl, h⟩ := bind_eq_some_iff.1 h
    simp only [Steps.guarded] at h
    obtain ⟨hs, rfl⟩ := h
    exact .inr (.finish p (Loop.pass?_eq_some.1 hl) hs)

section Passes
variable {p : Pass} {ans : Answer}

@[simp] theorem handleFailure_gen : (p.handleFailure ans).gen = p.gen := by cases ans <;> rfl
@[simp] theorem handleFailure_desired : (p.handleFailure ans).desired = p.desired := by cases ans <;> rfl
@[simp] theorem handleFailure_wantAll : (p.handleFailure ans).wantAll = p.wantAll := by cases ans <;> rfl

theorem handleFailure_ok (h : (p.handleFailure ans).ok = true) : ans = .ok ∧ p.ok = true := by
  cases ans with
  | ok => exact ⟨rfl, h⟩
  | serverError | transportError => cases h

theorem handleFailure_abort (ha : p.abort = true → p.ok = false) (h : (p.handleFailure ans).abort = true) :
    (p.handleFailure ans).ok = false := by
  cases ans with
  | ok => exact ha h
  | serverError | transportError => rfl

end Passes

/-! ## Reference counts -/

def Caller.scope : Caller → Option Scope
  | .counting sc _ => some sc
  | .uncounting sc => some sc
  | .signalling _ => none

def Caller.uncounted (sc : Scope) : Caller → Option Chan
  | .counting sc' ch => if sc' = sc then some ch else none
  | _ => none

def Counted (sc : Scope) (chs : List Chan) (n : Int) (callers : List Caller) : Prop :=
  ∃ counted : List Chan, chs.Perm (counted ++ callers.filterMap (Caller.uncounted sc)) ∧
    n = counted.length + callers.count (.uncounting sc)

namespace Counted
variable {sc : Scope} {chs : List Chan} {n : Int} {cs cs' : List Caller} {c : Caller}

theorem perm (hp : cs.Perm cs') (h : Counted sc chs n cs) : Counted sc chs n cs' := by
  obtain ⟨counted, hpr, hn⟩ := h
  refine ⟨counted, hpr.trans ((hp.filterMap _).append_left counted), ?_⟩
  rw [hn, hp.count_eq]

theorem resumed (hc : c ∈ cs) (h : Counted sc chs n cs) : Counted sc chs n (c :: cs.erase c) :=
  h.perm (perm_cons_erase hc)

theorem cons_iff (hc : c.scope ≠ some sc) : Counted sc chs n (c :: cs) ↔ Counted sc chs n cs := by
  have hn : c.uncounted sc = none := by cases c <;> simp_all [Caller.uncounted, Caller.scope]
  have hcn : (c :: cs).count (.uncounting sc) = cs.count (.uncounting sc) := by
    refine count_cons_of_ne fun hcc => hc ?_
    rw [hcc]; rfl
  simp only [Counted, filterMap_cons_none hn, hcn]

theorem nonneg (h : Counted sc chs n cs) : 0 ≤ n := by
  obtain ⟨counted, -, hn⟩ := h
  omega

theorem opened (ch : Chan) (h : Counted sc chs n cs) : Counted sc (chs ++ [ch]) n (.counting sc ch :: cs) := by
  obtain ⟨counted, hp, hn⟩ := h
  have hun : (Caller.counting sc ch).uncounted sc = some ch := by simp [Caller.uncounted]
  refine ⟨counted, ?_, by rw [hn, count_cons_of_ne (by simp)]⟩
  rw [filterMap_cons_some hun]
  have hl : (chs ++ [ch]).Perm (ch :: chs) := perm_append_singleton ch chs
  exact (hl.trans (hp.cons ch)).trans perm_middle.symm

theorem closed (hch : ch ∈ chs) (hr : ch ∉ cs.filterMap (Caller.uncounted sc))
    (h : Counted sc chs n cs) : Counted sc (chs.erase ch) n (.uncounting sc :: cs) := by
  obtain ⟨counted, hp, hn⟩ := h
  have hm : ch ∈ counted := (mem_append.1 (hp.mem_iff.1 hch)).resolve_right hr
  refine ⟨counted.erase ch, ?_, ?_⟩
  · have := hp.erase ch
    rwa [erase_append_left _ hm] at this
  · have hl := length_erase_add_one hm
    rw [count_cons_self]
    omega

theorem counted (h : Counted sc chs n (.counting sc ch :: cs)) : Counted sc chs (n + 1) cs := by
  obtain ⟨counted, hp, hn⟩ := h
  have hun : (Caller.counting sc ch).uncounted sc = some ch := by simp [Caller.uncounted]
  rw [filterMap_cons_some hun] at hp
  rw [count_cons_of_ne (by simp)] at hn
  refine ⟨ch :: counted, hp.trans perm_middle, ?_⟩
  simp only [length_cons, hn]
  omega

theorem uncounted (h : Counted sc chs n (.uncounting sc :: cs)) : 1 ≤ n ∧ Counted sc chs (n - 1) cs := by
  obtain ⟨counted, hp, hn⟩ := h
  rw [count_cons_self] at hn
  exact ⟨by omega, counted, hp, by omega⟩

end Counted

section Scopes
variable {b : Bus} {sc sc' : Scope}

@[simp] theorem entries_setEntries (b : Bus) (sc : Scope) (chs : List Chan) : (b.setEntries sc chs).entries sc = chs := by
  cases sc <;> simp [Bus.setEntries, Bus.entries]

theorem entries_setEntries_of_ne (h : sc' ≠ sc) (chs : List Chan) : (b.setEntries sc chs).entries sc' = b.entries sc' := by
  cases sc <;> cases sc' <;> simp_all [Bus.setEntries, Bus.entries]

theorem refCount_addRef : (b.addRef sc).refCount sc = b.refCount sc + 1 := by
  cases sc <;> simp [Bus.addRef, Bus.refCount]

theorem refCount_addRef_of_ne (h : sc' ≠ sc) : (b.addRef sc).refCount sc' = b.refCount sc' := by
  cases sc <;> cases sc' <;> simp_all [Bus.addRef, Bus.refCount]

theorem subRefCounts_dropRef (b : Bus) (t : GoStr) : (b.dropRef (.tenant t)).subRefCounts =
    if b.refCount (.tenant t) - 1 = 0 then b.subRefCounts.erase t
    else b.subRefCounts.insert t (b.refCount (.tenant t) - 1) := rfl

theorem refCount_dropRef : (b.dropRef sc).refCount sc = b.refCount sc - 1 := by
  cases sc with
  | all => rfl
  | tenant t =>
    show ((b.dropRef (.tenant t)).subRefCounts.lookup t).getD 0 = _
    rw [subRefCounts_dropRef]
    split
    · rename_i h; rw [h]; simp
    · simp

theorem refCount_dropRef_of_ne (h : sc' ≠ sc) : (b.dropRef sc).refCount sc' = b.refCount sc' := by
  cases sc with
  | all => cases sc' <;> simp_all [Bus.dropRef, Bus.refCount]
  | tenant t =>
    cases sc' with
    | all => rfl
    | tenant t' =>
      have hne : t' ≠ t := fun ht => h (ht ▸ rfl)
      show ((b.dropRef (.tenant t)).subRefCounts.lookup t').getD 0 = _
      rw [subRefCounts_dropRef]
      split
      · rw [AList.lookup_erase_ne hne]; rfl
      · rw [AList.lookup_insert_ne hne]; rfl

end Scopes

structure CountInv (b : Bus) : Prop where
  counted : ∀ sc, Counted sc (b.entries sc) (b.refCount sc) b.callers
  stored : ∀ t, b.subRefCounts.lookup t ≠ some 0

theorem countInv_init : CountInv Bus.init where
  counted sc := by
    have h0 : Counted sc [] 0 [] := ⟨[], List.Perm.nil, rfl⟩
    cases sc with
    | tenant t => simpa [Bus.init, Bus.entries, Bus.refCount] using h0
    | all => exact h0
  stored t := by simp [Bus.init]

namespace CountInv
variable {b : Bus}

variable (h : CountInv b)
include h

theorem refCount_nonneg (sc : Scope) : 0 ≤ b.refCount sc := (h.counted sc).nonneg

theorem opened (sc : Scope) : CountInv (b.openCall sc) where
  counted sc' := by
    have hc : (b.openCall sc).refCount sc' = b.refCount sc' := by cases sc <;> cases sc' <;> rfl
    rw [hc]
    show Counted sc' ((b.setEntries sc _).entries sc') _ (.counting sc b.chans :: b.callers)
    by_cases hsc : sc' = sc
    · subst hsc
      rw [entries_setEntries]
      exact (h.counted sc').opened b.chans
    · rw [entries_setEntries_of_ne hsc, Counted.cons_iff (by simpa [Caller.scope] using Ne.symm hsc)]
      exact h.counted sc'
  stored := by cases sc <;> exact h.stored

theorem closed {sc : Scope} (hr : b.returned ch = true) (hm : ch ∈ b.entries sc) :
    CountInv { b.setEntries sc ((b.entries sc).erase ch) with callers := .uncounting sc :: b.callers } where
  counted sc' := by
    have hcn : ({ b.setEntries sc ((b.entries sc).erase ch) with
        callers := .uncounting sc :: b.callers } : Bus).refCount sc' = b.refCount sc' := by
      cases sc <;> cases sc' <;> rfl
    rw [hcn]
    show Counted sc' ((b.setEntries sc _).entries sc') _ (.uncounting sc :: b.callers)
    by_cases hsc : sc' = sc
    · subst hsc
      rw [entries_setEntries]
      -- a call that is still counting has not handed out its channel
      refine (h.counted sc').closed hm fun hun => ?_
      obtain ⟨c, hc, hcu⟩ := mem_filterMap.1 hun
      have hne : c.chan ≠ some ch := by simpa using all_eq_true.1 hr c hc
      cases c with
      | counting sc'' ch' => simp_all [Caller.uncounted, Caller.chan]
      | uncounting _ | signalling _ => cases hcu
    · rw [entries_setEntries_of_ne hsc, Counted.cons_iff (by simpa [Caller.scope] using Ne.symm hsc)]
      exact h.counted sc'
  stored := by cases sc <;> exact h.stored

theorem leaveRefSection (changed : Bool) (ch : Option Chan) : CountInv (b.leaveRefSection changed ch) := by
  unfold Bus.leaveRefSection
  split
  · exact ⟨fun sc => by
      rw [show ({ b.noteDesiredChangedLocked with callers := .signalling ch :: b.callers } : Bus).entries sc =
        b.entries sc by cases sc <;> rfl]
      rw [show ({ b.noteDesiredChangedLocked with callers := .signalling ch :: b.callers } : Bus).refCount sc =
        b.refCount sc by cases sc <;> rfl]
      exact (Counted.cons_iff (by simp [Caller.scope])).2 (h.counted sc), h.stored⟩
  · exact h

end CountInv

theorem entries_addRef (b : Bus) (sc sc' : Scope) : (b.addRef sc).entries sc' = b.entries sc' := by
  cases sc <;> cases sc' <;> rfl

theorem entries_dropRef (b : Bus) (sc sc' : Scope) : (b.dropRef sc).entries sc' = b.entries sc' := by
  cases sc <;> cases sc' <;> rfl

theorem callers_addRef (b : Bus) (sc : Scope) : (b.addRef sc).callers = b.callers := by cases sc <;> rfl
theorem callers_dropRef (b : Bus) (sc : Scope) : (b.dropRef sc).callers = b.callers := by cases sc <;> rfl

namespace CountInv
variable {b : Bus} {sc : Scope}

variable (h : CountInv b)
include h

theorem erase_of_ne {c : Caller} (hc : c ∈ b.callers) (hsc : c.scope ≠ some sc) :
    Counted sc (b.entries sc) (b.refCount sc) (b.callers.erase c) :=
  (Counted.cons_iff hsc).1 ((h.counted sc).resumed hc)

theorem addRef (hc : .counting sc ch ∈ b.callers) :
    CountInv ({ b with callers := b.callers.erase (.counting sc ch) }.addRef sc) where
  counted sc' := by
    rw [entries_addRef, callers_addRef]
    show Counted sc' (b.entries sc') _ (b.callers.erase (.counting sc ch))
    by_cases hsc : sc' = sc
    · subst hsc
      rw [refCount_addRef]
      exact ((h.counted sc').resumed hc).counted
    · rw [refCount_addRef_of_ne hsc]
      exact h.erase_of_ne hc (by simpa [Caller.scope] using Ne.symm hsc)
  stored t := by
    cases sc with
    | all => exact h.stored t
    | tenant t' =>
      have hp := h.refCount_nonneg (.tenant t')
      simp only [Bus.addRef]
      by_cases ht : t = t'
      · subst ht
        rw [AList.lookup_insert]
        simp only [Bus.refCount] at hp ⊢
        intro h0
        have := Option.some.inj h0
        omega
      · rw [AList.lookup_insert_ne ht]
        exact h.stored t

theorem dropRef (hc : .uncounting sc ∈ b.callers) :
    CountInv ({ b with callers := b.callers.erase (.uncounting sc) }.dropRef sc) where
  counted sc' := by
    rw [entries_dropRef, callers_dropRef]
    show Counted sc' (b.entries sc') _ (b.callers.erase (.uncounting sc))
    by_cases hsc : sc' = sc
    · subst hsc
      rw [refCount_dropRef]
      exact ((h.counted sc').resumed hc).uncounted.2
    · rw [refCount_dropRef_of_ne hsc]
      exact h.erase_of_ne hc (by simpa [Caller.scope] using Ne.symm hsc)
  stored t := by
    cases sc with
    | all => exact h.stored t
    | tenant t' =>
      rw [subRefCounts_dropRef]
      by_cases ht : t = t'
      · subst ht
        split
        · simp
        · rename_i hne
          rw [AList.lookup_insert]
          exact fun h0 => hne (Option.some.inj h0)
      · split
        · rw [AList.lookup_erase_ne ht]; exact h.stored t
        · rw [AList.lookup_insert_ne ht]; exact h.stored t

theorem one_le_refCount (hc : .uncounting sc ∈ b.callers) : 1 ≤ b.refCount sc :=
  ((h.counted sc).resumed hc).uncounted.1

theorem signalled {ch : Option Chan} (hc : .signalling ch ∈ b.callers) :
    CountInv { b with callers := b.callers.erase (.signalling ch) }.signalSubscriptionChange where
  counted sc := by
    have hs : Counted sc (b.entries sc) (b.refCount sc) (b.callers.erase (.signalling ch)) :=
      h.erase_of_ne hc (by simp [Caller.scope])
    cases sc <;> exact hs
  stored := h.stored

theorem calls {b' : Bus} (hb : Calls b b') : CountInv b' := by
  cases hb with
  | same => exact h
  | opened sc => exact h.opened sc
  | closed sc ch hr hm => exact h.closed hr hm
  | resumed c hc =>
    cases c with
    | counting sc ch => exact (h.addRef hc).leaveRefSection _ _
    | uncounting sc => exact (h.dropRef hc).leaveRefSection _ _
    | signalling ch => exact h.signalled hc

theorem mem_desired_iff (t : GoStr) : t ∈ b.desired ↔ 0 < b.refCount (.tenant t) := by
  have hn := h.refCount_nonneg (.tenant t)
  have hs := h.stored t
  have hk : t ∈ b.desired ↔ (b.subRefCounts.lookup t).isSome := by
    rw [Bus.desired, List.mem_toFinset, AList.lookup_isSome, AList.mem_keys]
  rw [hk]
  simp only [Bus.refCount] at hn ⊢
  cases hl : b.subRefCounts.lookup t with
  | none => simp
  | some n =>
    rw [hl] at hn hs
    have hne : n ≠ 0 := fun h0 => hs (h0 ▸ rfl)
    simp only [getD_some, isSome_some, true_iff] at hn ⊢
    omega

end CountInv

variable {b : Bus} {sc : Scope}

theorem Loops.frame (h : Loops b b') :
    b'.tenantSubscribers = b.tenantSubscribers ∧ b'.allSubscribers = b.allSubscribers ∧
      b'.subRefCounts = b.subRefCounts ∧ b'.subscribeAllRefCount = b.subscribeAllRefCount ∧
      b'.callers = b.callers := by
  cases h with
  | missing p todo t ans => unfold Bus.visitMissing; split <;> exact ⟨rfl, rfl, rfl, rfl, rfl⟩
  | stale p todo t ans => unfold Bus.visitStale; split <;> exact ⟨rfl, rfl, rfl, rfl, rfl⟩
  | psubscribe p ans => unfold Bus.psubscribe; split <;> exact ⟨rfl, rfl, rfl, rfl, rfl⟩
  | punsubscribe p ans => unfold Bus.punsubscribe; split <;> exact ⟨rfl, rfl, rfl, rfl, rfl⟩
  | finish p =>
    unfold Bus.finish
    split
    · exact ⟨rfl, rfl, rfl, rfl, rfl⟩
    · split <;> exact ⟨rfl, rfl, rfl, rfl, rfl⟩
  | _ => exact ⟨rfl, rfl, rfl, rfl, rfl⟩

theorem CountInv.loops (h : CountInv b) (hb : Loops b b') : CountInv b' := by
  obtain ⟨ht, ha, hr, hcn, hc⟩ := hb.frame
  refine ⟨fun sc => ?_, fun t => by rw [hr]; exact h.stored t⟩
  have hsc := h.counted sc
  cases sc with
  | tenant t => rw [Bus.entries, Bus.refCount, ht, hr, hc]; exact hsc
  | all => rw [Bus.entries, Bus.refCount, ha, hcn, hc]; exact hsc

/-! ## Generations -/

/-- A call has bumped the generation and not executed its signal. -/
def Bus.SignalPending (b : Bus) : Prop := ∃ ch, Caller.signalling ch ∈ b.callers

def Bus.Woken (b : Bus) : Prop := b.subWake = true ∨ b.SignalPending

structure Declares (b b' : Bus) : Prop where
  tenants : b'.confirmedTenants = b.confirmedTenants
  all : b'.confirmedAll = b.confirmedAll
  gen : b'.confirmedGen = b.confirmedGen
  ctx : b'.cancelled = b.cancelled
  loop : b'.loop = b.loop
  retry : b'.retry = b.retry
  desired : (b'.desiredGen = b.desiredGen ∧ b'.desired = b.desired ∧ b'.wantAll = b.wantAll) ∨
    (b'.desiredGen = b.desiredGen + 1 ∧ b'.SignalPending)
  woken : b.Woken → b'.Woken

theorem mem_of_refCount_ne_zero (h : b.refCount (.tenant t) ≠ 0) : t ∈ b.subRefCounts := by
  rw [← AList.lookup_isSome]
  cases hl : b.subRefCounts.lookup t with
  | none => simp [Bus.refCount, hl] at h
  | some n => rfl

theorem keys_insert_of_mem {refs : AList fun _ : GoStr => Int} (ht : t ∈ refs) (n : Int) :
    (refs.insert t n).keys.toFinset = refs.keys.toFinset := by
  ext t'
  rw [List.mem_toFinset, List.mem_toFinset, ← AList.mem_keys, ← AList.mem_keys, AList.mem_insert]
  constructor
  · rintro (rfl | h)
    · exact ht
    · exact h
  · exact .inr

theorem addRef_same (hn : 0 ≤ b.refCount sc) (h1 : (b.addRef sc).refCount sc ≠ 1) :
    (b.addRef sc).desired = b.desired ∧ (b.addRef sc).wantAll = b.wantAll := by
  rw [refCount_addRef] at h1
  cases sc with
  | all =>
    simp only [Bus.refCount] at hn h1
    have hp : 0 < b.subscribeAllRefCount + 1 ↔ 0 < b.subscribeAllRefCount := by omega
    exact ⟨rfl, decide_eq_decide.2 hp⟩
  | tenant t => exact ⟨keys_insert_of_mem (mem_of_refCount_ne_zero (by omega)) _, rfl⟩

theorem dropRef_same (hn : 1 ≤ b.refCount sc) (h0 : (b.dropRef sc).refCount sc ≠ 0) :
    (b.dropRef sc).desired = b.desired ∧ (b.dropRef sc).wantAll = b.wantAll := by
  rw [refCount_dropRef] at h0
  cases sc with
  | all =>
    simp only [Bus.refCount] at hn h0
    have hp : 0 < b.subscribeAllRefCount - 1 ↔ 0 < b.subscribeAllRefCount := by omega
    exact ⟨rfl, decide_eq_decide.2 hp⟩
  | tenant t =>
    refine ⟨?_, rfl⟩
    rw [Bus.desired, subRefCounts_dropRef, if_neg h0]
    exact keys_insert_of_mem (mem_of_refCount_ne_zero (by omega)) _

theorem declares_leaveRefSection {b b₁ : Bus} {c : Caller} {changed : Bool} {ch : Option Chan}
    (hf : b₁.confirmedTenants = b.confirmedTenants ∧ b₁.confirmedAll = b.confirmedAll ∧
      b₁.confirmedGen = b.confirmedGen ∧ b₁.cancelled = b.cancelled ∧ b₁.loop = b.loop ∧ b₁.retry = b.retry ∧
      b₁.desiredGen = b.desiredGen ∧ b₁.subWake = b.subWake ∧ b₁.callers = b.callers.erase c)
    (hc : ∀ ch, c ≠ .signalling ch)
    (hs : changed = false → b₁.desired = b.desired ∧ b₁.wantAll = b.wantAll) :
    Declares b (b₁.leaveRefSection changed ch) := by
  obtain ⟨h1, h2, h3, h4, h5, h6, h7, h8, h9⟩ := hf
  have hk : b.SignalPending → b₁.SignalPending := by
    rintro ⟨ch', hch⟩
    exact ⟨ch', h9 ▸ (mem_erase_of_ne (Ne.symm (hc ch'))).2 hch⟩
  cases changed with
  | true =>
    refine ⟨h1, h2, h3, h4, h5, h6, .inr ⟨congrArg (· + 1) h7, ch, mem_cons_self⟩, ?_⟩
    exact fun _ => .inr ⟨ch, mem_cons_self⟩
  | false =>
    obtain ⟨hd, hw⟩ := hs rfl
    refine ⟨h1, h2, h3, h4, h5, h6, .inl ⟨h7, hd, hw⟩, ?_⟩
    exact fun h => h.imp (fun hwk => h8.trans hwk) hk

theorem Calls.declares (hb : CountInv b) (h : Calls b b') : Declares b b' := by
  cases h with
  | same => exact ⟨rfl, rfl, rfl, rfl, rfl, rfl, .inl ⟨rfl, rfl, rfl⟩, id⟩
  | opened sc =>
    have hw : b.Woken → (b.openCall sc).Woken := by
      rintro (hwk | ⟨ch, hch⟩)
      · exact .inl (by cases sc <;> exact hwk)
      · exact .inr ⟨ch, mem_cons_of_mem _ hch⟩
    cases sc <;> exact ⟨rfl, rfl, rfl, rfl, rfl, rfl, .inl ⟨rfl, rfl, rfl⟩, hw⟩
  | closed sc ch hr hm =>
    have hw : b.Woken → Bus.Woken { b.setEntries sc ((b.entries sc).erase ch) with
        callers := .uncounting sc :: b.callers } := by
      rintro (hwk | ⟨ch', hch⟩)
      · exact .inl (by cases sc <;> exact hwk)
      · exact .inr ⟨ch', mem_cons_of_mem _ hch⟩
    cases sc <;> exact ⟨rfl, rfl, rfl, rfl, rfl, rfl, .inl ⟨rfl, rfl, rfl⟩, hw⟩
  | resumed c hc =>
    cases c with
    | counting sc ch =>
      refine declares_leaveRefSection (c := .counting sc ch) (by cases sc <;> simp [Bus.addRef]) (by simp) fun hch => ?_
      have hnn := hb.refCount_nonneg sc
      have h1 := of_decide_eq_false hch
      have hs := @addRef_same { b with callers := b.callers.erase (.counting sc ch) } sc (by cases sc <;> exact hnn) h1
      cases sc <;> exact hs
    | uncounting sc =>
      refine declares_leaveRefSection (c := .uncounting sc) (by cases sc <;> simp [Bus.dropRef]) (by simp) fun hch => ?_
      have hnn := hb.one_le_refCount hc
      have h0 := of_decide_eq_false hch
      have hs := @dropRef_same { b with callers := b.callers.erase (.uncounting sc) } sc (by cases sc <;> exact hnn) h0
      cases sc <;> exact hs
    | signalling ch =>
      exact ⟨rfl, rfl, rfl, rfl, rfl, rfl, .inl ⟨rfl, rfl, rfl⟩, fun _ => .inl rfl⟩

end Sukko.Broadcast
