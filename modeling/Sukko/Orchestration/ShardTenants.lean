import Sukko.Broadcast.References
import Sukko.Lib.Replica
/-
# Tenant subscriptions of the shards

Both calls leave `tenantMu` before they talk to the bus: several first connects may each subscribe, and a last disconnect may
give its channel back while the next first connect subscribes again.
-/

namespace Sukko.Orchestration.ShardTenants
open List

open Broadcast (Bus Chan Scope)
open Replica Steps

structure TenantEntry where
  ch : Chan
  refCount : Int
deriving DecidableEq

/-- Where a call is between its locked parts. -/
inductive Call (n : Nat)
  | subscribing (sh : Fin n) (tenantID : GoStr)
  | waiting (sh : Fin n) (tenantID : GoStr) (ch : Chan)
  | rollingBack (sh : Fin n) (tenantID : GoStr) (ch : Chan)
  | returning (sh : Fin n) (tenantID : GoStr)
  | launching (sh : Fin n) (tenantID : GoStr) (ch : Chan)
  | dropping (sh : Fin n) (tenantID : GoStr) (ch : Chan)
deriving DecidableEq

structure State (n : Nat) where
  bus : Bus
  shards : Fin n → Map GoStr TenantEntry
  calls : List (Call n)
  connected : List (Fin n × GoStr)
  launched : List (Fin n × GoStr × Chan)
  cancelled : List (Fin n × GoStr × Chan)

inductive Act (n : Nat)
  | connect (sh : Fin n) (tenantID : GoStr)
  | disconnect (sh : Fin n) (tenantID : GoStr)
  | resume (c : Call n)
  | bus (a : Broadcast.Act)

def ofOthers : Broadcast.Act → Bool
  | .subscribe _ | .unsubscribe _ _ => false
  | _ => true

namespace State
variable {n : Nat}

def init : State n := ⟨Bus.init, fun _ => Map.empty, [], [], [], []⟩

def setEntry (s : State n) (sh : Fin n) (t : GoStr) (e : Option TenantEntry) : State n :=
  { s with shards := Function.update s.shards sh (Function.update (s.shards sh) t e) }

/-- The next part of a call (`server/orchestration/shard.go`). -/
def proceed (s : State n) : Call n → Option (State n)
  | .subscribing sh t =>
    match s.bus.subscribe t with
    | .error _ => some s
    | .ok b => some { s with bus := b, calls := .waiting sh t s.bus.chans :: s.calls }
  | .waiting sh t ch =>
    if s.bus.returned ch then
      match s.shards sh t with
      | some e =>
        some { s.setEntry sh t (some { e with refCount := e.refCount + 1 }) with calls := .rollingBack sh t ch :: s.calls }
      | none => some { s.setEntry sh t (some ⟨ch, 1⟩) with calls := .launching sh t ch :: s.calls }
    else none
  | .rollingBack sh t ch => some { s with bus := s.bus.orSame (s.bus.unsubscribe t ch), calls := .returning sh t :: s.calls }
  | .returning sh t => some { s with connected := (sh, t) :: s.connected }
  | .launching sh t ch => some { s with launched := (sh, t, ch) :: s.launched, connected := (sh, t) :: s.connected }
  | .dropping _ t ch => some { s with bus := s.bus.orSame (s.bus.unsubscribe t ch) }

def step (s : State n) : Act n → Option (State n)
  | .connect sh t =>
    match s.shards sh t with
    | some e =>
      some { s.setEntry sh t (some { e with refCount := e.refCount + 1 }) with connected := (sh, t) :: s.connected }
    | none => some { s with calls := .subscribing sh t :: s.calls }
  | .disconnect sh t =>
    if (sh, t) ∈ s.connected then
      let s := { s with connected := s.connected.erase (sh, t) }
      match s.shards sh t with
      | none => some s
      | some e =>
        if e.refCount - 1 > 0 then some (s.setEntry sh t (some { e with refCount := e.refCount - 1 }))
        else some { s.setEntry sh t none with
          cancelled := (sh, t, e.ch) :: s.cancelled
          calls := .dropping sh t e.ch :: s.calls }
    else none
  | .resume c => if c ∈ s.calls then { s with calls := s.calls.erase c }.proceed c else none
  | .bus a => if ofOthers a then (Broadcast.step s.bus a).map fun b => { s with bus := b } else none

/-! ## What is held -/

def refCount (s : State n) (sh : Fin n) (t : GoStr) : Int := (s.shards sh t).elim 0 TenantEntry.refCount
def held (s : State n) (t : GoStr) : List Chan := (List.finRange n).filterMap fun sh => (s.shards sh t).map TenantEntry.ch

/-- The channels whose forwarding goroutine runs. -/
def forwarders (s : State n) (sh : Fin n) (t : GoStr) : List Chan :=
  s.launched.filterMap fun f => if f.1 = sh ∧ f.2.1 = t ∧ f ∉ s.cancelled then some f.2.2 else none

end State

def Call.owns {n : Nat} (t : GoStr) : Call n → Option Chan
  | .waiting _ t' ch | .rollingBack _ t' ch | .dropping _ t' ch => if t' = t then some ch else none
  | _ => none

def Call.pending {n : Nat} (sh : Fin n) (t : GoStr) : Call n → Bool
  | .rollingBack sh' t' _ | .returning sh' t' | .launching sh' t' _ => sh' = sh ∧ t' = t
  | _ => false

def Call.starts {n : Nat} (sh : Fin n) (t : GoStr) : Call n → Option Chan
  | .launching sh' t' ch => if sh' = sh ∧ t' = t then some ch else none
  | _ => none

def Call.settled {n : Nat} : Call n → Option Chan
  | .rollingBack _ _ ch | .dropping _ _ ch => some ch
  | _ => none

/-! ## The bus -/

section Bus
variable {b b' : Bus} {ch : Chan}

theorem returned_iff : b.returned ch = true ↔ ∀ c ∈ b.callers, c.chan ≠ some ch := by
  simp [Bus.returned, all_eq_true]

theorem loops_frame (h : Broadcast.Loops b b') :
    b'.tenantSubscribers = b.tenantSubscribers ∧ b'.chans = b.chans ∧ b'.callers = b.callers := by
  obtain ⟨ht, _, _, _, hc⟩ := h.frame
  refine ⟨ht, ?_, hc⟩
  cases h with
  | missing p todo t ans => unfold Bus.visitMissing; split <;> rfl
  | stale p todo t ans => unfold Bus.visitStale; split <;> rfl
  | psubscribe p ans => unfold Bus.psubscribe; split <;> rfl
  | punsubscribe p ans => unfold Bus.punsubscribe; split <;> rfl
  | finish p =>
    unfold Bus.finish
    split
    · rfl
    · split <;> rfl
  | _ => rfl

theorem leaveRefSection_frame (b : Bus) (changed : Bool) (o : Option Chan) :
    (b.leaveRefSection changed o).tenantSubscribers = b.tenantSubscribers ∧ (b.leaveRefSection changed o).chans = b.chans ∧
      ∀ c ∈ (b.leaveRefSection changed o).callers, c = .signalling o ∨ c ∈ b.callers := by
  unfold Bus.leaveRefSection
  split
  · exact ⟨rfl, rfl, fun c hc => mem_cons.1 hc⟩
  · exact ⟨rfl, rfl, fun c hc => .inr hc⟩

theorem resume_frame {c : Broadcast.Caller} (hc : c ∈ b.callers) :
    (b.resume c).tenantSubscribers = b.tenantSubscribers ∧ (b.resume c).chans = b.chans ∧
      (b.returned ch = true → (b.resume c).returned ch = true) := by
  cases c with
  | counting sc made =>
    obtain ⟨ht, hch, hcl⟩ := leaveRefSection_frame ({ b with callers := b.callers.erase (.counting sc made) }.addRef sc)
      (({ b with callers := b.callers.erase (.counting sc made) }.addRef sc).refCount sc = 1) (some made)
    refine ⟨ht.trans (by cases sc <;> rfl), hch.trans (by cases sc <;> rfl), fun hr => ?_⟩
    rw [returned_iff] at hr ⊢
    intro c' hc'
    rcases hcl c' hc' with rfl | hm
    · exact hr (.counting sc made) hc
    · rw [Broadcast.callers_addRef] at hm
      exact hr c' (mem_of_mem_erase hm)
  | uncounting sc =>
    obtain ⟨ht, hch, hcl⟩ := leaveRefSection_frame ({ b with callers := b.callers.erase (.uncounting sc) }.dropRef sc)
      (({ b with callers := b.callers.erase (.uncounting sc) }.dropRef sc).refCount sc = 0) none
    refine ⟨ht.trans (by cases sc <;> rfl), hch.trans (by cases sc <;> rfl), fun hr => ?_⟩
    rw [returned_iff] at hr ⊢
    intro c' hc'
    rcases hcl c' hc' with rfl | hm
    · simp [Broadcast.Caller.chan]
    · rw [Broadcast.callers_dropRef] at hm
      exact hr c' (mem_of_mem_erase hm)
  | signalling o =>
    refine ⟨rfl, rfl, fun hr => ?_⟩
    rw [returned_iff] at hr ⊢
    exact fun c' hc' => hr c' (mem_of_mem_erase hc')

theorem openCall_returned (sc : Scope) (hlt : ch < b.chans) (hr : b.returned ch = true) :
    (b.openCall sc).returned ch = true := by
  rw [returned_iff] at hr ⊢
  intro c hc
  have hcs : c = .counting sc b.chans ∨ c ∈ b.callers := mem_cons.1 hc
  rcases hcs with rfl | hold
  · simp only [Broadcast.Caller.chan, ne_eq, Option.some.injEq]
    exact Nat.ne_of_gt hlt
  · exact hr c hold

theorem closeCall_returned (sc : Scope) (made : Chan) (hr : b.returned ch = true) :
    (b.orSame (b.closeCall sc made)).returned ch = true := by
  unfold Bus.closeCall
  split
  · rw [returned_iff] at hr ⊢
    intro c hc
    have hcs : c = .uncounting sc ∨ c ∈ b.callers := mem_cons.1 hc
    rcases hcs with rfl | hold
    · simp [Broadcast.Caller.chan]
    · exact hr c hold
  · exact hr

theorem others_frame {a : Broadcast.Act} (ha : ofOthers a = true) (hs : Broadcast.step b a = some b') :
    b'.tenantSubscribers = b.tenantSubscribers ∧ b.chans ≤ b'.chans ∧
      (ch < b.chans → b.returned ch = true → b'.returned ch = true) := by
  have hlp : Broadcast.Loops b b' → b'.tenantSubscribers = b.tenantSubscribers ∧ b.chans ≤ b'.chans ∧
      (ch < b.chans → b.returned ch = true → b'.returned ch = true) := by
    intro h
    obtain ⟨ht, hch, hcl⟩ := loops_frame h
    exact ⟨ht, hch.ge, fun _ hr => by rwa [Bus.returned, hcl]⟩
  cases a with simp only [Broadcast.step, guarded] at hs
  | subscribe t | unsubscribe t made => simp [ofOthers] at ha
  | subscribeAll =>
    cases hs
    exact ⟨rfl, Nat.le_succ _, openCall_returned .all⟩
  | unsubscribeAll made =>
    obtain ⟨_, rfl⟩ := hs
    refine ⟨?_, ?_, fun _ => closeCall_returned .all made⟩
    · simp only [Bus.unsubscribeAll, Bus.closeCall]
      split <;> rfl
    · simp only [Bus.unsubscribeAll, Bus.closeCall]
      split <;> exact Nat.le_refl _
  | resume c =>
    obtain ⟨hc, rfl⟩ := hs
    obtain ⟨ht, hch, hr⟩ := resume_frame hc
    exact ⟨ht, hch.ge, fun _ => hr⟩
  | visit t ans =>
    obtain ⟨p, hl, h⟩ := Option.bind_eq_some_iff.1 hs
    exact hlp (Broadcast.loops_visit (Broadcast.Loop.pass?_eq_some.1 hl) h)
  | leave =>
    obtain ⟨p, hl, h⟩ := Option.bind_eq_some_iff.1 hs
    exact hlp (Broadcast.loops_leave (Broadcast.Loop.pass?_eq_some.1 hl) h)
  | pattern ans =>
    obtain ⟨p, hl, h⟩ := Option.bind_eq_some_iff.1 hs
    exact hlp (Broadcast.loops_pattern (Broadcast.Loop.pass?_eq_some.1 hl) h)
  | finish =>
    obtain ⟨p, hl, h⟩ := Option.bind_eq_some_iff.1 hs
    simp only [guarded] at h
    obtain ⟨hst, rfl⟩ := h
    exact hlp (.finish p (Broadcast.Loop.pass?_eq_some.1 hl) hst)
  | cancel =>
    cases hs
    exact hlp .cancel
  | _ =>
    obtain ⟨_, rfl⟩ := hs
    exact ⟨rfl, Nat.le_refl _, fun _ hr => hr⟩

end Bus
end Sukko.Orchestration.ShardTenants
