import Sukko.Server.Connections
/-
# When a broadcast sends on a closed queue

`transport` is cleared only by `Put`, after `closeSend`: the check passes for a queue that is closed already, and one can close
between the check and the send. `sendWindowClear` names the two overlaps.
-/

namespace Sukko.Server
open Steps List

/-- A queue is closed only while no broadcast stands between its check of that client and its send, and no broadcast checks a
client whose queue is closed and that is not back in the pool. -/
def sendWindowClear (s : State) : Act → Bool
  | .teardown c =>
    match (s.client c).phase with
    | .closing (.closeSend :: _) => s.broadcasts.all fun b => b.sending.all fun p => p.1 != c
    | _ => true
  | .check i =>
    match s.broadcasts[i]? with
    | some ⟨_, c :: _, none, _⟩ => !((s.client c).sendClosed && (s.client c).transport)
    | _ => true
  | _ => true

structure SendInv (s : State) : Prop where
  checked : ∀ b ∈ s.broadcasts, ∀ c seq, b.sending = some (c, seq) → (s.client c).sendClosed = false
  clean : ∀ ch l, .sendOnClosed ch l ∉ s.hist

theorem sendInv_init : SendInv init where
  checked _ h := by cases h
  clean _ _ h := by cases h

variable {c : Ref} {s s' : State} {bufferSize : Nat} {b : Broadcast} {cl : Client}

theorem SendInv.frame (h : SendInv s) (hcl : ∀ c, (s'.client c).sendClosed = true → (s.client c).sendClosed = true)
    (hs : ∀ b' ∈ s'.broadcasts, ∀ p, b'.sending = some p → ∃ b ∈ s.broadcasts, b.sending = some p)
    (hh : ∀ ch l, .sendOnClosed ch l ∈ s'.hist → .sendOnClosed ch l ∈ s.hist) : SendInv s' where
  checked b' hb' c seq hp := by
    obtain ⟨b, hb, hp⟩ := hs b' hb' (c, seq) hp
    have ho := h.checked b hb c seq hp
    cases hc : (s'.client c).sendClosed with
    | false => rfl
    | true => rw [hcl c hc] at ho; cases ho
  clean ch l hm := h.clean ch l (hh ch l hm)

theorem closed_of_setClient (hcl : cl.sendClosed = true → (s.client c).sendClosed = true) (d : Ref)
    (hd : ((s.setClient c cl).client d).sendClosed = true) : (s.client d).sendClosed = true := by
  by_cases hdc : d = c
  · subst hdc; rw [setClient_self] at hd; exact hcl hd
  · rwa [setClient_of_ne cl hdc] at hd

section
variable (h : SendInv s)
include h

theorem SendInv.setClient (hcl : cl.sendClosed = true → (s.client c).sendClosed = true) : SendInv (s.setClient c cl) :=
  h.frame (closed_of_setClient hcl) (fun b hb _ hp => ⟨b, hb, hp⟩) (fun _ _ => id)

theorem SendInv.closeSend {todo : List Teardown}
    (hc : ∀ b ∈ s.broadcasts, ∀ seq, b.sending ≠ some (c, seq)) : SendInv (execTeardown s c todo .closeSend) where
  checked b hb d seq hp := by
    have hdc : d ≠ c := fun hdc => hc b hb seq (hdc ▸ hp)
    rw [execTeardown, setClient_of_ne _ hdc]
    exact h.checked b hb d seq hp
  clean := h.clean

theorem SendInv.check {i : Nat} {rest : List Ref} (hb : b ∈ s.broadcasts)
    (ho : (s.client c).transport = true → (s.client c).sendClosed = false) : SendInv (execCheck s i b c rest) := by
  unfold execCheck
  split
  · rename_i ht
    have hset : SendInv (s.setClient c { s.client c with seq := (s.client c).seq + 1 }) := h.setClient id
    refine ⟨fun x hx d seq hp => ?_, hset.clean⟩
    rcases mem_or_eq_of_mem_set hx with hx | rfl
    · exact hset.checked x hx d seq hp
    · cases hp
      simpa using ho ht
  · refine h.frame (fun _ => id) (fun x hx p hp => ?_) (fun _ _ => id)
    rcases mem_or_eq_of_mem_set hx with hx | rfl
    · exact ⟨x, hx, hp⟩
    · exact ⟨b, hb, hp⟩

theorem SendInv.send {i : Nat} {seq : Nat} (hb : b ∈ s.broadcasts)
    (hp : b.sending = some (c, seq)) : SendInv (execSend bufferSize s i b c seq) := by
  have ho := h.checked b hb c seq hp
  -- the call that sends has no client checked any more, the others are as they were
  have hr : ∀ x ∈ s.broadcasts.set i { b with sending := none }, ∀ p, x.sending = some p →
      ∃ y ∈ s.broadcasts, y.sending = some p := by
    intro x hx p hxp
    rcases mem_or_eq_of_mem_set hx with hx | rfl
    · exact ⟨x, hx, hxp⟩
    · cases hxp
  unfold execSend
  rw [if_neg (by simp [ho])]
  split
  · exact h.frame (fun d => closed_of_setClient (by exact id) d) hr (by simp)
  · exact h.frame (fun _ => id) hr (by simp)

theorem sendInv_step {a : Act} (hok : sendWindowClear s a = true) (hs : step bufferSize s a = some s') : SendInv s' := by
  cases a with simp only [step] at hs
  | get c k =>
    split at hs <;> cases hs
    exact h.setClient (by simp [Client.reset])
  | drain c => cases hs; exact h.setClient id
  | indexAdd c =>
    split at hs <;> cases hs
    refine h.frame (fun d => closed_of_setClient (by exact id) d) (fun b' hb' p hp => ?_) (fun _ _ => id)
    obtain ⟨b, hb, rfl⟩ := mem_map.1 hb'
    refine ⟨b, hb, ?_⟩
    unfold Broadcast.noticed at hp
    split at hp <;> exact hp
  | indexRemove c =>
    split at hs <;> cases hs
    exact h.frame (fun d => closed_of_setClient (by exact id) d) (fun b hb p hp => ⟨b, hb, hp⟩) (fun _ _ => id)
  | teardown c =>
    split at hs <;> cases hs
    rename_i t todo hpc
    cases t with
    | removeMultiple =>
      exact h.frame (fun d => closed_of_setClient (by exact id) d) (fun b hb p hp => ⟨b, hb, hp⟩) (fun _ _ => id)
    | closeSend =>
      refine h.closeSend fun b hb seq hp => ?_
      simp only [sendWindowClear, hpc, all_eq_true] at hok
      simpa [hp] using hok b hb
    | put => exact h.setClient id
  | snapshot ch =>
    cases hs
    refine h.frame (fun _ => id) (fun b hb p hp => ?_) (fun _ _ => id)
    rcases mem_append.1 hb with hb | hb
    · exact ⟨b, hb, hp⟩
    · rw [mem_singleton.1 hb] at hp; cases hp
  | check i =>
    split at hs
    · rename_i b hb
      split at hs <;> cases hs
      rename_i c rest hw hr
      obtain ⟨ch, rs, sending, during⟩ := b
      cases hw
      cases hr
      refine h.check (mem_of_getElem? hb) fun ht => ?_
      simpa [sendWindowClear, hb, ht] using hok
    · cases hs
  | send i =>
    split at hs
    · rename_i b hb
      split at hs <;> cases hs
      rename_i c seq hp
      exact h.send (mem_of_getElem? hb) hp
    · cases hs
  | _ =>
    split at hs <;> cases hs <;> exact h.setClient id

end

/-- **No send on a closed queue, outside the race.** -/
theorem broadcast_never_sends_on_closed (bufferSize : Nat) (acts : List Act) (s : State)
    (hrun : run (step bufferSize) init acts = some s)
    (hok : Along (step bufferSize) (fun s a => sendWindowClear s a = true) init acts) :
    ∀ ch l, .sendOnClosed ch l ∉ s.hist :=
  (run_invariant_along SendInv (fun _ _ _ h ha hs => sendInv_step h ha hs) sendInv_init hok hrun).clean

theorem broadcast_never_sends_on_closed_example :
    let acts := connectAndSubscribe 0 (str "acme.a") ++ [.snapshot (str "acme.a"), .check 0, .send 0,
      .disconnect 0, .teardown 0, .teardown 0, .teardown 0]
    ∃ s, run (step 4) init acts = some s ∧
      s.hist = [.enqueued (str "acme.a") (0, 1) 1 [(0, 1)]] ∧ ∀ ch l, .sendOnClosed ch l ∉ s.hist := by
  intro acts
  obtain ⟨s, hs, hhist⟩ : ∃ s, run (step 4) init acts = some s ∧
      s.hist = [.enqueued (str "acme.a") (0, 1) 1 [(0, 1)]] := ⟨_, rfl, rfl⟩
  exact ⟨s, hs, hhist, broadcast_never_sends_on_closed 4 acts s hs (by decide)⟩

/-- **Bug**: the client passes the check at `broadcast.go:124`, and its queue is closed (`client_lifecycle.go:73`) before the
send. -/
theorem disconnect_between_check_and_send_panics :
    ∃ s, run (step 4) init (connectAndSubscribe 0 (str "acme.a") ++ [.snapshot (str "acme.a"), .check 0,
      .disconnect 0, .teardown 0, .teardown 0, .send 0]) = some s ∧
      s.hist = [.sendOnClosed (str "acme.a") (0, 1)] :=
  ⟨_, rfl, rfl⟩

end Sukko.Server
