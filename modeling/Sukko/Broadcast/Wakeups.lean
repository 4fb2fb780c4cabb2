import Sukko.Broadcast.References
/-
# No wakeup of the Valkey bus is lost

A signal that finds the slot full is discarded. The slot is emptied only in the `select`, before the pass reads the desired
state, so the signal of a change that a pass has not seen is in the slot or still to come (`WakeInv`).
-/

namespace Sukko.Broadcast
open Steps

def Loop.Waiting (l : Loop) : Prop := l = .idle ∨ l = .top ∨ l = .select

theorem not_waiting_pass (p : Pass) : ¬ (Loop.pass p).Waiting := by rintro (h | h | h) <;> cases h
theorem not_waiting_converge : ¬ Loop.converge.Waiting := by rintro (h | h | h) <;> cases h

structure WakeInv (b : Bus) : Prop where
  waiting : b.loop.Waiting → b.confirmedGen ≠ b.desiredGen → b.Woken ∨ b.retry.isSome = true
  pass : ∀ p, b.loop = .pass p → p.gen ≠ b.desiredGen → b.Woken

theorem wakeInv_init : WakeInv Bus.init where
  waiting _ hne := absurd rfl hne
  pass p hp := by cases hp

namespace WakeInv
variable {b b' : Bus}

theorem due {l : Loop} (hwt : ¬ l.Waiting) (hps : ∀ p, l ≠ .pass p) (hl : b.loop = l) : WakeInv b where
  waiting hw := absurd (hl ▸ hw) hwt
  pass p hp := absurd (hl.symm.trans hp) (hps p)

variable (h : WakeInv b)
include h

theorem declares (hd : Declares b b') : WakeInv b' := by
  obtain ⟨hg, -, -⟩ | ⟨-, hs⟩ := hd.desired
  · constructor
    · rw [hd.loop, hd.gen, hg, hd.retry]
      exact fun hl hne => (h.waiting hl hne).imp_left hd.woken
    · rw [hd.loop, hg]
      exact fun p hp hne => hd.woken (h.pass p hp hne)
  · exact ⟨fun _ _ => .inl (.inr hs), fun _ _ _ => .inr hs⟩

theorem advance {p p' : Pass} (hl : b.loop = .pass p) (tenants : Finset GoStr) (all : Bool) (hg : p'.gen = p.gen) :
    WakeInv { b with confirmedTenants := tenants, confirmedAll := all, loop := .pass p' } where
  waiting hw := absurd hw (not_waiting_pass p')
  pass q hq hne := by
    cases hq
    exact h.pass p hl (hg ▸ hne)

theorem moved {l : Loop} (hf : b.loop.Waiting) (hto : ∀ p, l ≠ .pass p) : WakeInv { b with loop := l } where
  waiting _ hne := h.waiting hf hne
  pass p hp := absurd hp (hto p)

theorem finish {p : Pass} (hl : b.loop = .pass p) : WakeInv (b.finish p) := by
  unfold Bus.finish
  split
  · exact ⟨fun _ _ => .inr rfl, fun q hq => by cases hq⟩
  · split
    · exact ⟨fun _ hne => .inl (h.pass p hl hne), fun q hq => by cases hq⟩
    · exact ⟨fun _ _ => .inr rfl, fun q hq => by cases hq⟩

theorem loops (hb : Loops b b') : WakeInv b' := by
  cases hb with
  | cancel => exact ⟨h.waiting, h.pass⟩
  | moved l hf hc hst hto =>
    refine h.moved ?_ hto
    cases hl : b.loop with
    | idle => exact .inl rfl
    | top => exact .inr (.inl rfl)
    | select => exact .inr (.inr rfl)
    | converge => exact absurd hl hc
    | pass p => exact absurd hl (hf p)
    | stopped => exact absurd hl hst
  | wake hl | retry hl | disconnect hl => exact due not_waiting_converge (by simp) rfl
  | snapshot hl =>
    refine ⟨fun hw => absurd hw (not_waiting_pass _), fun p hp hne => ?_⟩
    cases hp
    exact absurd rfl hne
  | missing p todo t ans hl hs ht =>
    unfold Bus.visitMissing
    split
    · exact h.advance hl _ _ rfl
    · exact h.advance hl _ _ (by simp)
  | stale p todo t ans hl hs ht =>
    unfold Bus.visitStale
    split
    · exact h.advance hl _ _ rfl
    · exact h.advance hl _ _ (by simp)
  | leaveMissing p todo hl hs he | leaveStale p todo hl hs he => exact h.advance hl _ _ rfl
  | psubscribe p ans hl hs =>
    unfold Bus.psubscribe
    split
    · exact h.advance hl _ _ (by simp)
    · exact h.advance hl _ _ rfl
  | punsubscribe p ans hl hs =>
    unfold Bus.punsubscribe
    split
    · exact h.advance hl _ _ (by simp)
    · exact h.advance hl _ _ rfl
  | finish p hl hs => exact h.finish hl

end WakeInv

/-- **Wakeups are lossless.** Whenever the loop waits in its `select` with unequal generations, the slot
is full, the retry timer is armed, or a caller stands between its bump and its signal. -/
theorem wakeups_lossless {as : List Act} {b : Bus} (hrun : run step Bus.init as = some b)
    (hsel : b.loop = .select) (hgen : b.confirmedGen ≠ b.desiredGen) :
    b.subWake = true ∨ b.retry.isSome = true ∨ b.SignalPending := by
  have hinv : CountInv b ∧ WakeInv b := by
    refine run_invariant (fun b => CountInv b ∧ WakeInv b) ?_ ⟨countInv_init, wakeInv_init⟩ hrun
    rintro b a b' ⟨hcount, hwake⟩ hstep
    rcases step_cases hstep with h | h
    · exact ⟨hcount.calls h, hwake.declares (h.declares hcount)⟩
    · exact ⟨hcount.loops h, hwake.loops h⟩
  rcases hinv.2.waiting (.inr (.inr hsel)) hgen with (hslot | hsig) | hretry
  · exact .inl hslot
  · exact .inr (.inr hsig)
  · exact .inr (.inl hretry)

def pendingRun : List Act :=
  [.run, .check, .subscribe (str "acme"), .resume (.counting (.tenant (str "acme")) 0),
    .resume (.signalling (some 0)), .wake, .snapshot, .visit (str "acme") .ok, .leave, .visit (str "acme") .ok,
    .leave, .pattern .ok, .pattern .ok, .finish, .check, .unsubscribe (str "acme") 0,
    .resume (.uncounting (.tenant (str "acme")))]

theorem wakeups_lossless_pendingRun : ∃ b, run step Bus.init pendingRun = some b ∧ b.loop = .select ∧
    b.confirmedGen ≠ b.desiredGen ∧ (b.subWake = true ∨ b.retry.isSome = true ∨ b.SignalPending) :=
  ⟨_, rfl, rfl, by decide, @wakeups_lossless pendingRun _ rfl rfl (by decide)⟩

end Sukko.Broadcast
