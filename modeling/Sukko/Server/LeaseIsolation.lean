import Sukko.Server.Connections
/-
# Whose queue a broadcast reaches

An entry of the index belongs to the current lease of its object (`LeaseInv.entry`). The snapshot is not protected:
`noRecycleInFlight` says that no object is taken from the pool while a broadcast holds it.
-/

namespace Sukko.Server
open Steps List

def noRecycleInFlight (s : State) : Act → Bool
  | .get c _ => s.broadcasts.all fun b => !b.pending.contains c
  | _ => true

def Client.Holds (cl : Client) (ch : GoStr) : Prop :=
  match cl.phase with
  | .running _ | .subscribing _ _ => ch ∈ cl.subscriptions.channels
  | .unsubscribing _ chs => ch ∈ cl.subscriptions.channels ∨ ch ∈ chs
  | .closing todo => .removeMultiple ∈ todo ∧ ch ∈ cl.subscriptions.channels
  | _ => False

def Client.WF (cl : Client) : Prop :=
  match cl.phase with
  | .subscribing _ chs => ∀ ch ∈ chs, ch ∈ cl.subscriptions.channels
  | .closing todo => ∃ k, todo <:+ teardown k
  | _ => True

variable {c : Ref} {ch : GoStr} {chs : List GoStr} {cl : Client} {k : Kind} {l l' : Lease} {s : State} {reg : List (Lease × GoStr)}

theorem eq_nil_of_put_suffix {todo : List Teardown} (h : .put :: todo <:+ teardown k) : todo = [] := by
  cases k <;> simpa [teardown, suffix_cons_iff] using h

/-- The message went to a lease that was registered for the channel during the call. -/
def Event.Isolated : Event → Prop
  | .enqueued _ lease _ during => lease ∈ during
  | _ => True

structure LeaseInv (s : State) : Prop where
  clients : ∀ c, (s.client c).WF
  held : ∀ ch c, c ∈ s.index.get ch → (s.client c).Holds ch
  entry : ∀ ch c, c ∈ s.index.get ch → (s.lease c, ch) ∈ s.registered
  pending : ∀ b ∈ s.broadcasts, ∀ c ∈ b.pending, s.lease c ∈ b.during
  events : ∀ e ∈ s.hist, e.Isolated

theorem leaseInv_init : LeaseInv init where
  clients _ := trivial
  held _ _ h := by cases h
  entry _ _ h := by cases h
  pending _ h := by cases h
  events _ h := by cases h

theorem mem_register : (l', ch) ∈ register l chs reg ↔ l' = l ∧ ch ∈ chs ∨ (l', ch) ∈ reg := by
  simp only [register, mem_append, mem_map, Prod.mk.injEq]
  refine or_congr_left ⟨?_, ?_⟩
  · rintro ⟨x, hx, rfl, rfl⟩
    exact ⟨rfl, hx⟩
  · rintro ⟨rfl, hch⟩
    exact ⟨ch, hch, rfl, rfl⟩

theorem mem_unregister : (l', ch) ∈ unregister l chs reg ↔ (l', ch) ∈ reg ∧ ¬ (l' = l ∧ ch ∈ chs) := by
  simp only [unregister, mem_filter, Bool.not_eq_true', Bool.and_eq_false_imp, beq_iff_eq,
    contains_eq_mem, decide_eq_false_iff_not, not_and]

theorem mem_registeredFor : l ∈ s.registeredFor ch ↔ (l, ch) ∈ s.registered := by
  simp [State.registeredFor]

theorem setClient_lease (hg : cl.gen = (s.client c).gen) (d : Ref) : (s.setClient c cl).lease d = s.lease d := by
  unfold State.lease
  by_cases hdc : d = c
  · subst hdc; rw [setClient_self, hg]
  · rw [setClient_of_ne cl hdc]

section
variable (h : LeaseInv s)
include h

theorem LeaseInv.setClient_wf (hcl : cl.WF) (d : Ref) : ((s.setClient c cl).client d).WF := by
  by_cases hdc : d = c
  · subst hdc; rw [setClient_self]; exact hcl
  · rw [setClient_of_ne cl hdc]; exact h.clients d

theorem LeaseInv.setClient (hg : cl.gen = (s.client c).gen) (hcl : cl.WF)
    (hh : ∀ ch, (s.client c).Holds ch → cl.Holds ch) : LeaseInv (s.setClient c cl) where
  clients := h.setClient_wf hcl
  held ch d hd := by
    by_cases hdc : d = c
    · subst hdc; rw [setClient_self]; exact hh ch (h.held ch d hd)
    · rw [setClient_of_ne cl hdc]; exact h.held ch d hd
  entry ch d hd := by rw [setClient_lease hg]; exact h.entry ch d hd
  pending b hb d hd := by rw [setClient_lease hg]; exact h.pending b hb d hd
  events := h.events

theorem LeaseInv.setBroadcast {i : Nat} {b b' : Broadcast} (hb : b ∈ s.broadcasts)
    (hs : ∀ c ∈ b'.pending, c ∈ b.pending) (hd : b'.during = b.during) :
    LeaseInv { s with broadcasts := s.broadcasts.set i b' } where
  clients := h.clients
  held := h.held
  entry := h.entry
  pending x hx c hc := by
    rcases mem_or_eq_of_mem_set hx with hx | rfl
    · exact h.pending x hx c hc
    · rw [hd]; exact h.pending b hb c (hs c hc)
  events := h.events

theorem LeaseInv.record {e : Event} (he : e.Isolated) : LeaseInv { s with hist := s.hist ++ [e] } where
  clients := h.clients
  held := h.held
  entry := h.entry
  pending := h.pending
  events := forall_mem_append.2 ⟨h.events, forall_mem_singleton.2 he⟩

theorem LeaseInv.leave (hg : cl.gen = (s.client c).gen) (hcl : cl.WF)
    (hh : ∀ ch, (s.client c).Holds ch → ch ∉ chs → cl.Holds ch) :
    LeaseInv { s.setClient c cl with
      index := s.index.removeMultiple chs c, registered := unregister (s.lease c) chs s.registered } where
  clients := h.setClient_wf hcl
  held ch d hd := by
    obtain ⟨hm, hk⟩ := SubscriptionIndex.mem_removeMultiple.1 hd
    by_cases hdc : d = c
    · rw [hdc] at hm ⊢
      rw [setClient_self]
      exact hh ch (h.held ch c hm) fun hch => hk ⟨hdc, hch⟩
    · rw [setClient_of_ne cl hdc]; exact h.held ch d hm
  entry ch d hd := by
    obtain ⟨hm, hk⟩ := SubscriptionIndex.mem_removeMultiple.1 hd
    have hls := setClient_lease hg d
    refine mem_unregister.2 ⟨?_, ?_⟩
    · exact hls ▸ h.entry ch d hm
    · rintro ⟨hl, hch⟩
      have hdc : d = c := congrArg Prod.fst hl
      exact hk ⟨hdc, hch⟩
  pending b hb d hd := by
    have hls := setClient_lease hg d
    exact hls ▸ h.pending b hb d hd
  events := h.events

theorem LeaseInv.get (hpc : (s.client c).phase = .pooled) (hf : ∀ b ∈ s.broadcasts, c ∉ b.pending) :
    LeaseInv (s.setClient c ((s.client c).reset k)) := by
  have hot : ∀ ch, c ∉ s.index.get ch := by
    intro ch hc
    have := h.held ch c hc
    simp [Client.Holds, hpc] at this
  have ho : ∀ d, d ≠ c → (s.setClient c ((s.client c).reset k)).lease d = s.lease d := by
    intro d hdc
    rw [State.lease, setClient_of_ne _ hdc]
    rfl
  refine ⟨h.setClient_wf trivial, fun ch d hd => ?_, fun ch d hd => ?_, fun b hb d hd => ?_, h.events⟩
  · have hdc : d ≠ c := fun hdc => hot ch (hdc ▸ hd)
    rw [setClient_of_ne _ hdc]
    exact h.held ch d hd
  · have hdc : d ≠ c := fun hdc => hot ch (hdc ▸ hd)
    rw [ho d hdc]
    exact h.entry ch d hd
  · have hdc : d ≠ c := fun hdc => hf b hb (hdc ▸ hd)
    rw [ho d hdc]
    exact h.pending b hb d hd

theorem LeaseInv.join (hpc : (s.client c).phase = .subscribing k chs) :
    LeaseInv { s.setClient c { s.client c with phase := .running k } with
      index := s.index.addMultiple chs c
      registered := register (s.lease c) chs s.registered
      broadcasts := s.broadcasts.map (·.noticed (s.lease c) chs) } := by
  have hl : ∀ d, (s.setClient c { s.client c with phase := .running k }).lease d = s.lease d := setClient_lease rfl
  have hset : ∀ ch ∈ chs, ch ∈ (s.client c).subscriptions.channels := by
    have := h.clients c
    rwa [Client.WF, hpc] at this
  refine ⟨h.setClient_wf trivial, fun ch d hd => ?_, fun ch d hd => ?_, fun b hb d hd => ?_, h.events⟩
  · by_cases hdc : d = c
    · rw [hdc] at hd ⊢
      rw [setClient_self]
      rcases SubscriptionIndex.mem_addMultiple.1 hd with hd | ⟨-, hch⟩
      · have := h.held ch c hd
        rwa [Client.Holds, hpc] at this
      · exact hset ch hch
    · rw [setClient_of_ne _ hdc]
      rcases SubscriptionIndex.mem_addMultiple.1 hd with hd | ⟨hd, -⟩
      · exact h.held ch d hd
      · exact absurd hd hdc
  · refine mem_register.2 ?_
    rcases SubscriptionIndex.mem_addMultiple.1 hd with hd | ⟨rfl, hch⟩
    · exact .inr ((hl d) ▸ h.entry ch d hd)
    · exact .inl ⟨hl d, hch⟩
  · obtain ⟨b, hb', rfl⟩ := mem_map.1 hb
    have hd' : d ∈ b.pending := by
      unfold Broadcast.noticed at hd
      split at hd <;> exact hd
    have hdr : s.lease d ∈ b.during := h.pending b hb' d hd'
    have hg : s.lease d ∈ (b.noticed (s.lease c) chs).during := by
      unfold Broadcast.noticed
      split
      · exact mem_cons_of_mem _ hdr
      · exact hdr
    exact (hl d) ▸ hg

theorem leaseInv_step {bufferSize : Nat} {s' : State} {a : Act} (hok : noRecycleInFlight s a = true)
    (hs : step bufferSize s a = some s') : LeaseInv s' := by
  cases a with simp only [step] at hs
  | get c k =>
    split at hs <;> cases hs
    rename_i hpc
    refine h.get hpc fun b hb hc => ?_
    simp only [noRecycleInFlight, all_eq_true] at hok
    simpa [hc] using hok b hb
  | setTransport c =>
    split at hs <;> cases hs <;> rename_i hpc <;>
      exact h.setClient rfl trivial (by simp [Client.Holds, hpc])
  | accept c =>
    split at hs <;> cases hs
    rename_i hpc
    exact h.setClient rfl trivial (by simp [Client.Holds, hpc])
  | reject c =>
    split at hs <;> cases hs
    rename_i hpc
    exact h.setClient rfl ⟨.webSocket, by decide⟩ (by simp [Client.Holds, hpc])
  | subscribe c chs =>
    split at hs <;> cases hs
    rename_i hpc
    refine h.setClient rfl (fun ch hch => SubscriptionSet.mem_addMultiple.2 (.inr hch)) fun ch hch => ?_
    rw [Client.Holds, hpc] at hch
    exact SubscriptionSet.mem_addMultiple.2 (.inl hch)
  | indexAdd c =>
    split at hs <;> cases hs
    rename_i hpc
    exact h.join hpc
  | unsubscribe c chs =>
    split at hs <;> cases hs
    rename_i hpc
    refine h.setClient rfl trivial fun ch hch => ?_
    rw [Client.Holds, hpc] at hch
    by_cases hm : ch ∈ chs
    · exact .inr hm
    · exact .inl (SubscriptionSet.mem_removeMultiple.2 ⟨hch, hm⟩)
  | indexRemove c =>
    split at hs <;> cases hs
    rename_i hpc
    refine h.leave rfl trivial fun ch hch hnt => ?_
    rw [Client.Holds, hpc] at hch
    exact hch.resolve_right hnt
  | disconnect c =>
    split at hs <;> cases hs
    rename_i k hpc
    refine h.setClient rfl ⟨k, suffix_refl _⟩ fun ch hch => ?_
    rw [Client.Holds, hpc] at hch
    exact ⟨by cases k <;> simp [teardown], hch⟩
  | teardown c =>
    split at hs <;> cases hs
    rename_i t todo hpc
    obtain ⟨k, hk⟩ : ∃ k, t :: todo <:+ teardown k := by
      have := h.clients c
      rwa [Client.WF, hpc] at this
    have hwf : ∃ k, todo <:+ teardown k := ⟨k, (suffix_cons t todo).trans hk⟩
    cases t with
    | removeMultiple =>
      refine h.leave rfl hwf fun ch hch hnt => ?_
      rw [Client.Holds, hpc] at hch
      exact absurd hch.2 hnt
    | closeSend =>
      refine h.setClient rfl hwf fun ch hch => ?_
      simpa [Client.Holds, hpc] using hch
    | put =>
      refine h.setClient rfl trivial fun ch hch => ?_
      rw [Client.Holds, hpc, eq_nil_of_put_suffix hk] at hch
      simp at hch
  | drain c =>
    cases hs
    exact h.setClient rfl (h.clients c) fun _ => id
  | snapshot ch =>
    cases hs
    refine ⟨h.clients, h.held, h.entry, forall_mem_append.2 ⟨h.pending, forall_mem_singleton.2 fun c hc => ?_⟩, h.events⟩
    exact mem_registeredFor.2 (h.entry ch c (by simpa [Broadcast.pending] using hc))
  | check i =>
    split at hs
    · rename_i b hb
      split at hs <;> cases hs
      rename_i c rest hw hr
      have hm : b ∈ s.broadcasts := mem_of_getElem? hb
      have hp : b.pending = c :: rest := by simp [Broadcast.pending, hw, hr]
      unfold execCheck
      split
      · have hset : LeaseInv (s.setClient c { s.client c with seq := (s.client c).seq + 1 }) :=
          h.setClient rfl (h.clients c) fun _ => id
        exact hset.setBroadcast hm (by rw [hp]; simp [Broadcast.pending]) rfl
      · refine h.setBroadcast hm (fun d hd => ?_) rfl
        rw [hp]
        exact mem_cons_of_mem c (by simpa [Broadcast.pending, hw] using hd)
    · cases hs
  | send i =>
    split at hs
    · rename_i b hb
      split at hs <;> cases hs
      rename_i c seq hsn
      have hm : b ∈ s.broadcasts := mem_of_getElem? hb
      have hp : b.pending = c :: b.rest := by simp [Broadcast.pending, hsn]
      have hl : s.lease c ∈ b.during := h.pending b hm c (by simp [hp])
      have hf : ∀ d ∈ ({ b with sending := none } : Broadcast).pending, d ∈ b.pending := by
        rw [hp]
        intro d hd
        exact mem_cons_of_mem c (by simpa [Broadcast.pending] using hd)
      unfold execSend
      split
      · have hn : ∀ d ∈ ({ b with rest := [], sending := none } : Broadcast).pending, d ∈ b.pending := by
          simp [Broadcast.pending]
        exact (h.setBroadcast hm hn rfl).record (e := .sendOnClosed b.channel (s.lease c)) trivial
      · split
        · have hset : LeaseInv (s.setClient c { s.client c with send := (s.client c).send ++ [⟨b.channel, seq⟩] }) :=
            h.setClient rfl (h.clients c) fun _ => id
          exact (hset.setBroadcast hm hf rfl).record hl
        · exact (h.setBroadcast hm hf rfl).record trivial
    · cases hs

end

/-- **Lease isolation, while no object is recycled in flight**: a message is enqueued only for a lease that was registered for
the channel during the call. -/
theorem broadcast_reaches_subscribed_leases (bufferSize : Nat) (acts : List Act) (s : State)
    (hrun : run (step bufferSize) init acts = some s)
    (hok : Along (step bufferSize) (fun s a => noRecycleInFlight s a = true) init acts) :
    ∀ ch lease seq during, .enqueued ch lease seq during ∈ s.hist → lease ∈ during := by
  have h := run_invariant_along LeaseInv (fun _ _ _ h ha hs => leaseInv_step h ha hs) leaseInv_init hok hrun
  exact fun ch lease seq during he => h.events _ he

theorem broadcast_reaches_subscribed_leases_example :
    let acts := connectAndSubscribe 0 (str "acme.a") ++ [.snapshot (str "acme.a"), .check 0, .send 0,
      .disconnect 0, .teardown 0, .teardown 0, .teardown 0, .get 0 .webSocket]
    ∃ s, run (step 4) init acts = some s ∧ .enqueued (str "acme.a") (0, 1) 1 [(0, 1)] ∈ s.hist ∧
      ∀ ch lease seq during, .enqueued ch lease seq during ∈ s.hist → lease ∈ during := by
  intro acts
  obtain ⟨s, hs, hhist⟩ : ∃ s, run (step 4) init acts = some s ∧
      .enqueued (str "acme.a") (0, 1) 1 [(0, 1)] ∈ s.hist := ⟨_, rfl, by decide⟩
  exact ⟨s, hs, hhist, broadcast_reaches_subscribed_leases 4 acts s hs (by decide)⟩

/-- **Bug**: a client disconnects while a broadcast holds its pointer, and the pool gives the object to the next connection
(`connection.go:273`), which receives the message. -/
theorem recycled_client_receives_foreign_broadcast :
    ∃ s, run (step 4) init (connectAndSubscribe 0 (str "acme.a") ++ [.snapshot (str "acme.a"),
      .disconnect 0, .teardown 0, .teardown 0, .teardown 0, .get 0 .webSocket, .setTransport 0, .check 0,
      .send 0]) = some s ∧
      s.hist = [.enqueued (str "acme.a") (0, 2) 1 [(0, 1)]] ∧ ((0, 2) : Lease) ∉ [((0, 1) : Lease)] :=
  ⟨_, rfl, rfl, by decide⟩

end Sukko.Server
