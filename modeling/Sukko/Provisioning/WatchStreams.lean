import Sukko.Lib.Steps
/-
# The event bus and the watch streams

All `Watch…` handlers have one body (`provisioning/grpcserver/server.go`). A store is the list of its changes and a message the
number of changes its load saw. Loads and sends succeed.
-/

namespace Sukko.Provisioning.Watch
open Steps List Function Option

inductive EventType
  | keysChanged
  | tenantConfigChanged
  | topicsChanged
  | apiKeysChanged
  | pushConfigChanged
  | adminKeysChanged
  | licenseChanged
  | tokenRevocationsChanged
deriving DecidableEq

def subscriberBufferSize : Nat := 16

/-! ## The bus -/

structure Bus where
  subscribers : Nat → Option (List EventType)
  nextID : Nat

namespace Bus

def new : Bus := ⟨fun _ => none, 0⟩

def subscribe (b : Bus) : Bus :=
  ⟨Function.update b.subscribers b.nextID (some []), b.nextID + 1⟩

def unsubscribe (b : Bus) (id : Nat) : Bus := { b with subscribers := Function.update b.subscribers id none }
def ids (b : Bus) : List Nat := (List.range b.nextID).filter fun id => (b.subscribers id).isSome

/-- One iteration of the loop of `Publish` (`bus.go:126`). -/
def offer (b : Bus) (id : Nat) (e : EventType) : Bus :=
  match b.subscribers id with
  | none => b
  | some ch =>
    if ch.length < subscriberBufferSize then
      { b with subscribers := Function.update b.subscribers id (some (ch ++ [e])) }
    else b

def receive (b : Bus) (id : Nat) : Option (EventType × Bus) :=
  match b.subscribers id with
  | some (e :: ch) => some (e, { b with subscribers := Function.update b.subscribers id (some ch) })
  | _ => none

variable {b b' : Bus} {id id' : Nat} {e : EventType} {ch : List EventType}

theorem mem_ids : id ∈ b.ids ↔ id < b.nextID ∧ (b.subscribers id).isSome = true := by
  simp [ids]

@[simp] theorem offer_nextID : (b.offer id e).nextID = b.nextID := by
  unfold offer
  split
  · rfl
  · split <;> rfl

theorem offer_of_ne (h : id' ≠ id) : (b.offer id e).subscribers id' = b.subscribers id' := by
  unfold offer
  split
  · rfl
  · split
    · exact update_of_ne h _ _
    · rfl

theorem offer_isSome (h : (b.subscribers id').isSome = true) :
    ((b.offer id e).subscribers id').isSome = true := by
  unfold offer
  split
  · exact h
  · split
    · by_cases hid : id' = id
      · subst hid
        simp only [update_self, isSome_some]
      · simpa only [update_of_ne hid] using h
    · exact h

theorem offer_self (h : b.subscribers id = some ch) :
    (b.offer id e).subscribers id = some (if ch.length < subscriberBufferSize then ch ++ [e] else ch) := by
  unfold offer
  rw [h]
  dsimp only
  split
  · exact update_self _ _ _
  · exact h

theorem receive_eq_some (h : b.receive id = some (e, b')) :
    ∃ ch, b.subscribers id = some (e :: ch) ∧
      b' = { b with subscribers := Function.update b.subscribers id (some ch) } := by
  unfold receive at h
  split at h
  · cases h
    exact ⟨_, ‹_›, rfl⟩
  · cases h

end Bus

/-! ## The machine -/

inductive Publisher
  | idle
  | changed (k : EventType)
  | publishing (k : EventType) (pending : List Nat)
deriving DecidableEq

inductive Handler
  | start
  | loaded (at_ : Nat)
  | subscribing (sent : Nat)
  | waiting (id sent : Nat)
  | received (id sent : Nat) (e : EventType)
  | reloading (id sent : Nat)
  | reloaded (id sent at_ : Nat)
  | stopping (id : Nat)
  | returned
deriving DecidableEq

def Handler.subID : Handler → Option Nat
  | .waiting id _ | .received id _ _ | .reloading id _ | .reloaded id _ _ | .stopping id => some id
  | _ => none

def Handler.serving : Handler → Option (Nat × Nat)
  | .waiting id sent | .received id sent _ | .reloading id sent => some (id, sent)
  | .reloaded id _ at_ => some (id, at_)
  | _ => none

structure State (P H : Type) where
  changes : List EventType
  bus : Bus
  readers : Finset P
  pubs : P → Publisher
  handlers : H → Handler

inductive Act (P H : Type)
  | change (p : P) (k : EventType)
  | lock (p : P)
  | offer (p : P) (id : Nat)
  | unlock (p : P)
  | load (h : H)
  | sendSnapshot (h : H)
  | subscribe (h : H)
  | receive (h : H)
  | filter (h : H)
  | reload (h : H)
  | sendDelta (h : H)
  | cancel (h : H)
  | unsubscribe (h : H)
deriving DecidableEq

variable {P H : Type} [DecidableEq P] [DecidableEq H]

def State.init : State P H := ⟨[], Bus.new, ∅, fun _ => .idle, fun _ => .start⟩

def State.setPub (s : State P H) (p : P) (q : Publisher) : State P H :=
  { s with pubs := Function.update s.pubs p q }

def State.setHandler (s : State P H) (h : H) (w : Handler) : State P H :=
  { s with handlers := Function.update s.handlers h w }

def step (watches : H → EventType) (s : State P H) : Act P H → Option (State P H)
  | .change p k =>
    match s.pubs p with
    | .idle => some ({ s with changes := s.changes ++ [k] }.setPub p (.changed k))
    | _ => none
  | .lock p =>
    match s.pubs p with
    | .changed k => some ({ s with readers := insert p s.readers }.setPub p (.publishing k s.bus.ids))
    | _ => none
  | .offer p id =>
    match s.pubs p with
    | .publishing k pending =>
      if id ∈ pending then some ({ s with bus := s.bus.offer id k }.setPub p (.publishing k (pending.erase id)))
      else none
    | _ => none
  | .unlock p =>
    match s.pubs p with
    | .publishing _ [] => some ({ s with readers := s.readers.erase p }.setPub p .idle)
    | _ => none
  | .load h =>
    match s.handlers h with
    | .start => some (s.setHandler h (.loaded s.changes.length))
    | _ => none
  | .sendSnapshot h =>
    match s.handlers h with
    | .loaded at_ => some (s.setHandler h (.subscribing at_))
    | _ => none
  | .subscribe h =>
    match s.handlers h with
    -- `b.mu.Lock` waits for every reader
    | .subscribing sent =>
      if s.readers = ∅ then some ({ s with bus := s.bus.subscribe }.setHandler h (.waiting s.bus.nextID sent))
      else none
    | _ => none
  | .receive h =>
    match s.handlers h with
    | .waiting id sent =>
      (s.bus.receive id).map fun r => { s with bus := r.2 }.setHandler h (.received id sent r.1)
    | _ => none
  | .filter h =>
    match s.handlers h with
    | .received id sent e =>
      some (s.setHandler h (if e ≠ watches h then .waiting id sent else .reloading id sent))
    | _ => none
  | .reload h =>
    match s.handlers h with
    | .reloading id sent => some (s.setHandler h (.reloaded id sent s.changes.length))
    | _ => none
  | .sendDelta h =>
    match s.handlers h with
    | .reloaded id _ at_ => some (s.setHandler h (.waiting id at_))
    | _ => none
  | .cancel h =>
    match s.handlers h with
    | .waiting id _ => some (s.setHandler h (.stopping id))
    | _ => none
  | .unsubscribe h =>
    match s.handlers h with
    | .stopping id =>
      if s.readers = ∅ then some ({ s with bus := s.bus.unsubscribe id }.setHandler h .returned) else none
    | _ => none

/-! ## Notices -/

def Behind (s : State P H) (k : EventType) (n : Nat) : Prop := k ∈ s.changes.drop n

instance (s : State P H) (k : EventType) (n : Nat) : Decidable (Behind s k n) :=
  inferInstanceAs (Decidable (_ ∈ _))

inductive Noticed (watches : H → EventType) (s : State P H) (h : H) (id : Nat) : Prop
  | buffered (ch : List EventType) (hch : s.bus.subscribers id = some ch) (hk : watches h ∈ ch)
  | taken (sent : Nat) (hw : s.handlers h = .received id sent (watches h))
  | reloading (sent : Nat) (hw : s.handlers h = .reloading id sent)
  | unpublished (p : P) (hp : s.pubs p = .changed (watches h))
  | pending (p : P) (ids : List Nat) (hp : s.pubs p = .publishing (watches h) ids) (hid : id ∈ ids)

def Handler.due (k : EventType) : Handler → Bool
  | .received _ _ e => e == k
  | .reloading _ _ => true
  | _ => false

def Handler.snapshot : Handler → Option Nat
  | .subscribing sent => some sent
  | _ => none

def Publisher.event : Publisher → Option EventType
  | .idle => none
  | .changed k | .publishing k _ => some k

/-- When `h` subscribes, a change made since its load is still to be announced, and an event of its type that finds its channel
full finds one of its type there, or in the hands of `h`. -/
def Heard (watches : H → EventType) (h : H) (s : State P H) : Act P H → Prop
  | .subscribe h' =>
    h' = h → ∀ n ∈ (s.handlers h).snapshot, Behind s (watches h) n → ∃ p, s.pubs p = .changed (watches h)
  | .offer p id =>
    (s.handlers h).subID = some id → (s.pubs p).event = some (watches h) →
      ∀ ch ∈ s.bus.subscribers id, ch.length < subscriberBufferSize ∨ watches h ∈ ch ∨
        (s.handlers h).due (watches h) = true
  | _ => True

instance [Fintype P] (watches : H → EventType) (h : H) (s : State P H) : ∀ a, Decidable (Heard watches h s a)
  | .subscribe h' =>
    inferInstanceAs (Decidable (h' = h → ∀ n ∈ (s.handlers h).snapshot, Behind s (watches h) n →
      ∃ p, s.pubs p = .changed (watches h)))
  | .offer p id =>
    inferInstanceAs (Decidable ((s.handlers h).subID = some id → (s.pubs p).event = some (watches h) →
      ∀ ch ∈ s.bus.subscribers id, ch.length < subscriberBufferSize ∨ watches h ∈ ch ∨
        (s.handlers h).due (watches h) = true))
  | .change .. | .lock .. | .unlock .. | .load .. | .sendSnapshot .. | .receive .. | .filter .. | .reload ..
  | .sendDelta .. | .cancel .. | .unsubscribe .. => isTrue trivial

/-! ## Subscriptions -/

structure Registered (s : State P H) : Prop where
  below : ∀ h id, (s.handlers h).subID = some id → id < s.bus.nextID
  live : ∀ h id, (s.handlers h).subID = some id → (s.bus.subscribers id).isSome = true
  inj : ∀ h h' id, (s.handlers h).subID = some id → (s.handlers h').subID = some id → h = h'

namespace Registered
variable {s s' : State P H} {h : H}

omit [DecidableEq P] [DecidableEq H] in
theorem of_subset (hr : Registered s) (hn : s'.bus.nextID = s.bus.nextID)
    (hs : ∀ h id, (s'.handlers h).subID = some id → (s.handlers h).subID = some id)
    (hl : ∀ h id, (s'.handlers h).subID = some id → (s.bus.subscribers id).isSome = true →
      (s'.bus.subscribers id).isSome = true) : Registered s' where
  below h id hid := hn ▸ hr.below h id (hs h id hid)
  live h id hid := hl h id hid (hr.live h id (hs h id hid))
  inj h h' id hid hi := hr.inj h h' id (hs h id hid) (hs h' id hi)

section
omit [DecidableEq P]

theorem setHandler (hr : Registered s) {w : Handler} (hw : ∀ id, w.subID = some id → (s.handlers h).subID = some id)
    {bus : Bus} (hn : bus.nextID = s.bus.nextID)
    (hl : ∀ id, (s.bus.subscribers id).isSome = true → (bus.subscribers id).isSome = true) :
    Registered ({ s with bus }.setHandler h w) := by
  refine hr.of_subset hn (fun h' id hid => ?_) (fun _ id _ => hl id)
  by_cases hh : h' = h
  · subst hh
    simp only [State.setHandler, update_self] at hid
    exact hw id hid
  · simpa only [State.setHandler, update_of_ne hh] using hid

theorem subscribe (hr : Registered s) (sent : Nat) :
    Registered ({ s with bus := s.bus.subscribe }.setHandler h (.waiting s.bus.nextID sent)) := by
  -- the new id is above every id in use
  have hold : ∀ h' id, h' ≠ h → ((Function.update s.handlers h (.waiting s.bus.nextID sent)) h').subID = some id →
      id < s.bus.nextID ∧ (s.handlers h').subID = some id := by
    intro h' id hne hid
    rw [update_of_ne hne] at hid
    exact ⟨hr.below h' id hid, hid⟩
  have hn : ∀ id, ((Function.update s.handlers h (.waiting s.bus.nextID sent)) h).subID = some id →
      id = s.bus.nextID := by
    intro id hid
    rw [update_self] at hid
    exact (Option.some.inj hid).symm
  refine ⟨fun h' id hid => ?_, fun h' id hid => ?_, fun h1 h2 id h1id h2id => ?_⟩
  · by_cases hh : h' = h
    · subst hh
      rw [hn id hid]
      exact Nat.lt_succ_self _
    · exact Nat.lt_succ_of_lt (hold h' id hh hid).1
  · by_cases hh : h' = h
    · subst hh
      rw [hn id hid]
      change (Function.update s.bus.subscribers s.bus.nextID (some []) s.bus.nextID).isSome = true
      rw [update_self]
      rfl
    · obtain ⟨hlt, hi⟩ := hold h' id hh hid
      have hs : s.bus.subscribe.subscribers id = s.bus.subscribers id :=
        update_of_ne (Nat.ne_of_lt hlt) _ _
      exact hs ▸ hr.live h' id hi
  · by_cases hh1 : h1 = h <;> by_cases hh2 : h2 = h
    · exact hh1.trans hh2.symm
    · subst hh1
      exact absurd (hn id h1id) (Nat.ne_of_lt (hold h2 id hh2 h2id).1)
    · subst hh2
      exact absurd (hn id h2id) (Nat.ne_of_lt (hold h1 id hh1 h1id).1)
    · exact hr.inj h1 h2 id (hold h1 id hh1 h1id).2 (hold h2 id hh2 h2id).2

theorem unsubscribe (hr : Registered s) {id : Nat} (hw : s.handlers h = .stopping id) :
    Registered ({ s with bus := s.bus.unsubscribe id }.setHandler h .returned) := by
  have ho : ∀ h' id', ((Function.update s.handlers h .returned) h').subID = some id' →
      h' ≠ h ∧ (s.handlers h').subID = some id' := by
    intro h' id' hid
    by_cases hh : h' = h
    · subst hh
      rw [update_self] at hid
      cases hid
    · rw [update_of_ne hh] at hid
      exact ⟨hh, hid⟩
  refine hr.of_subset rfl (fun h' id' hid => (ho h' id' hid).2) (fun h' id' hid hl => ?_)
  obtain ⟨hne, hid'⟩ := ho h' id' hid
  have hi : id' ≠ id := by
    rintro rfl
    exact hne (hr.inj h' h id' hid' (by rw [hw]; rfl))
  change (Function.update s.bus.subscribers id none id').isSome = true
  rw [update_of_ne hi]
  exact hl
end
end Registered

/-! ## What a handler has missed -/

def Aware (watches : H → EventType) (h : H) (s : State P H) : Prop :=
  ∀ id n, (s.handlers h).serving = some (id, n) → Behind s (watches h) n → Noticed watches s h id

variable {n : Nat} {w : Handler}

theorem Handler.subID_of_serving {id : Nat} (hw : w.serving = some (id, n)) : w.subID = some id := by
  cases w <;> cases hw <;> rfl

section Steps
variable {watches : H → EventType} {h h' : H} {s s' : State P H} {p : P} {id : Nat}

section
omit [DecidableEq P] [DecidableEq H]

theorem Noticed.of_publisher (hn : Noticed watches s h id) (hw : s'.handlers h = s.handlers h)
    (hpb : ∀ p', p' ≠ p → s'.pubs p' = s.pubs p')
    (hb : ∀ ch, s.bus.subscribers id = some ch → watches h ∈ ch →
      ∃ ch', s'.bus.subscribers id = some ch' ∧ watches h ∈ ch')
    (hc : s.pubs p = .changed (watches h) → Noticed watches s' h id)
    (hp : ∀ ids, s.pubs p = .publishing (watches h) ids → id ∈ ids → Noticed watches s' h id) :
    Noticed watches s' h id := by
  cases hn with
  | buffered ch hch hk =>
    obtain ⟨ch', hch', hk'⟩ := hb ch hch hk
    exact .buffered ch' hch' hk'
  | taken sent ht => exact .taken sent (hw.trans ht)
  | reloading sent hr => exact .reloading sent (hw.trans hr)
  | unpublished p' hp' =>
    by_cases hpp : p' = p
    · exact hc (hpp ▸ hp')
    · exact .unpublished p' ((hpb p' hpp).trans hp')
  | pending p' ids hp' hid =>
    by_cases hpp : p' = p
    · exact hp ids (hpp ▸ hp') hid
    · exact .pending p' ids ((hpb p' hpp).trans hp') hid

theorem Noticed.of_same (hn : Noticed watches s h id) (hw : s'.handlers h = s.handlers h) (hpb : s'.pubs = s.pubs)
    (hb : s'.bus.subscribers id = s.bus.subscribers id) : Noticed watches s' h id := by
  cases hn with
  | buffered ch hch hk => exact .buffered ch (hb.trans hch) hk
  | taken sent ht => exact .taken sent (hw.trans ht)
  | reloading sent hr => exact .reloading sent (hw.trans hr)
  | unpublished p hp => exact .unpublished p (hpb ▸ hp)
  | pending p ids hp hid => exact .pending p ids (hpb ▸ hp) hid

theorem Noticed.of_due (hs : (s.handlers h).subID = some id) (hd : (s.handlers h).due (watches h) = true) :
    Noticed watches s h id := by
  cases hw : s.handlers h with
  | received id' sent e =>
    rw [hw] at hd hs
    obtain rfl : e = watches h := eq_of_beq hd
    obtain rfl : id' = id := Option.some.inj hs
    exact .taken sent hw
  | reloading id' sent =>
    rw [hw] at hs
    obtain rfl : id' = id := Option.some.inj hs
    exact .reloading sent hw
  | _ => rw [hw] at hd; cases hd
end

omit [DecidableEq H] in
theorem Aware.change (ha : Aware watches h s) (k : EventType) (hp : s.pubs p = .idle) :
    Aware watches h ({ s with changes := s.changes ++ [k] }.setPub p (.changed k)) := by
  intro id n hs hb
  by_cases hk : k = watches h
  · refine .unpublished p ?_
    simp only [State.setPub, update_self, hk]
  · -- the change is of another kind, so `h` was behind before
    have hbf : Behind s (watches h) n := by
      have hm : watches h ∈ (s.changes ++ [k]).drop n := hb
      rw [drop_append] at hm
      refine (mem_append.1 hm).resolve_right fun hl => hk ?_
      exact (mem_singleton.1 (mem_of_mem_drop hl)).symm
    refine (ha id n hs hbf).of_publisher (p := p) rfl (fun p' hne => update_of_ne hne _ _)
      (fun ch hch hk => ⟨ch, hch, hk⟩) ?_ ?_
    · intro hc
      rw [hp] at hc
      cases hc
    · intro ids hc
      rw [hp] at hc
      cases hc

variable {bus : Bus} {k e : EventType}

section
omit [DecidableEq H]

theorem Aware.lock (hr : Registered s) (ha : Aware watches h s) (hp : s.pubs p = .changed k) :
    Aware watches h ({ s with readers := insert p s.readers }.setPub p (.publishing k s.bus.ids)) := by
  intro id n hs hb
  refine (ha id n hs hb).of_publisher (p := p) rfl (fun p' hne => update_of_ne hne _ _)
    (fun ch hch hk => ⟨ch, hch, hk⟩) ?_ ?_
  · intro hc
    obtain rfl : k = watches h := Publisher.changed.inj (hp.symm.trans hc)
    have hsb := Handler.subID_of_serving hs
    refine .pending p s.bus.ids (update_self _ _ _) (Bus.mem_ids.2 ⟨?_, ?_⟩)
    · exact hr.below h id hsb
    · exact hr.live h id hsb
  · intro ids hc
    rw [hp] at hc
    cases hc

theorem Aware.offer {pending : List Nat} {id' : Nat} (hr : Registered s) (ha : Aware watches h s)
    (hp : s.pubs p = .publishing k pending) (hok : Heard watches h s (.offer p id')) :
    Aware watches h ({ s with bus := s.bus.offer id' k }.setPub p (.publishing k (pending.erase id'))) := by
  intro id n hs hb
  have hsb := Handler.subID_of_serving hs
  obtain ⟨ch, hch⟩ := isSome_iff_exists.1 (hr.live h id hsb)
  by_cases hid : id = id'
  · subst hid
    have hsl := Bus.offer_self (e := k) hch
    refine (ha id n hs hb).of_publisher (p := p) rfl (fun p' hne => update_of_ne hne _ _) ?_ ?_ ?_
    · intro ch' hch' hk
      obtain rfl : ch = ch' := Option.some.inj (hch.symm.trans hch')
      refine ⟨_, hsl, ?_⟩
      split
      · exact mem_append_left _ hk
      · exact hk
    · intro hc
      rw [hp] at hc
      cases hc
    · intro ids hc _
      obtain ⟨rfl, rfl⟩ : k = watches h ∧ pending = ids := by
        rw [hp] at hc
        exact Publisher.publishing.inj hc
      -- the event goes into the channel, or one of its type is there or in the hands of `h`
      have he : (s.pubs p).event = some (watches h) := by rw [hp]; rfl
      rcases hok hsb he ch hch with hrm | hin | hd
      · refine .buffered _ hsl ?_
        rw [if_pos hrm]
        exact mem_append_right _ mem_cons_self
      · refine .buffered _ hsl ?_
        split
        · exact mem_append_left _ hin
        · exact hin
      · exact .of_due hsb hd
  · refine (ha id n hs hb).of_publisher (p := p) rfl (fun p' hne => update_of_ne hne _ _) ?_ ?_ ?_
    · intro ch' hch' hk
      exact ⟨ch', (Bus.offer_of_ne hid).trans hch', hk⟩
    · intro hc
      rw [hp] at hc
      cases hc
    · intro ids hc hm
      rw [hp] at hc
      obtain ⟨rfl, rfl⟩ := Publisher.publishing.inj hc
      exact .pending p _ (update_self _ _ _) ((mem_erase_of_ne hid).2 hm)

theorem Aware.unlock (ha : Aware watches h s) (hp : s.pubs p = .publishing k []) :
    Aware watches h ({ s with readers := s.readers.erase p }.setPub p .idle) := by
  intro id n hs hb
  refine (ha id n hs hb).of_publisher (p := p) rfl (fun p' hne => update_of_ne hne _ _)
    (fun ch hch hk => ⟨ch, hch, hk⟩) ?_ ?_
  · intro hc
    rw [hp] at hc
    cases hc
  · intro ids hc hm
    rw [hp] at hc
    cases hc
    cases hm
end

section
omit [DecidableEq P]

theorem Aware.other (w : Handler) (ha : Aware watches h s) (hne : h ≠ h')
    (hbs : ∀ id, (s.handlers h).subID = some id → bus.subscribers id = s.bus.subscribers id) :
    Aware watches h ({ s with bus }.setHandler h' w) := by
  intro id n hsr hb
  have hw : (Function.update s.handlers h' w) h = s.handlers h := update_of_ne hne _ _
  have hs : (s.handlers h).serving = some (id, n) := hw ▸ hsr
  exact (ha id n hs hb).of_same hw rfl (hbs id (Handler.subID_of_serving hs))

theorem Aware.own (bus : Bus) (hn : ∀ id n, w.serving = some (id, n) → Behind s (watches h) n →
      Noticed watches ({ s with bus }.setHandler h w) h id) : Aware watches h ({ s with bus }.setHandler h w) := by
  intro id n hs hb
  have hw : (Function.update s.handlers h w) h = w := update_self _ _ _
  exact hn id n (hw ▸ hs) hb
end

omit [DecidableEq P] [DecidableEq H] in
theorem not_behind_now (s : State P H) (k : EventType) : ¬ Behind s k s.changes.length := by
  unfold Behind
  rw [drop_length]
  exact not_mem_nil

section
omit [DecidableEq P]

theorem Noticed.moved (hn : Noticed watches s h id) (hd : (s.handlers h).due (watches h) = false) :
    Noticed watches (s.setHandler h w) h id := by
  cases hn with
  | buffered ch hch hk => exact .buffered ch hch hk
  | taken sent ht =>
    rw [ht] at hd
    simp [Handler.due] at hd
  | reloading sent hr =>
    rw [hr] at hd
    cases hd
  | unpublished p hp => exact .unpublished p hp
  | pending p ids hp hid => exact .pending p ids hp hid

theorem Aware.subscribe (hw : s.handlers h = .subscribing n) (hok : Heard watches h s (.subscribe h)) :
    Aware watches h ({ s with bus := s.bus.subscribe }.setHandler h (.waiting s.bus.nextID n)) := by
  refine .own _ fun id n' hs hb => ?_
  cases hs
  have hsn : n ∈ (s.handlers h).snapshot := by rw [hw]; rfl
  obtain ⟨p, hp⟩ := hok rfl n hsn hb
  exact .unpublished p hp

theorem Aware.receive (ha : Aware watches h s) (hw : s.handlers h = .waiting id n)
    (hrc : s.bus.receive id = some (e, bus)) : Aware watches h ({ s with bus }.setHandler h (.received id n e)) := by
  obtain ⟨ch, hch, rfl⟩ := Bus.receive_eq_some hrc
  refine .own _ fun id' n' hs hb => ?_
  cases hs
  have hs : (s.handlers h).serving = some (id, n) := by rw [hw]; rfl
  by_cases he : e = watches h
  · subst he
    exact .taken n (update_self _ _ _)
  · cases ha id n hs hb with
    | buffered ch' hc hk =>
      obtain rfl : e :: ch = ch' := Option.some.inj (hch.symm.trans hc)
      refine .buffered ch (update_self _ _ _) ?_
      exact (mem_cons.1 hk).resolve_left fun heq => he heq.symm
    | taken sent ht => cases hw.symm.trans ht
    | reloading sent hr => cases hw.symm.trans hr
    | unpublished p hp => exact .unpublished p hp
    | pending p ids hp hid => exact .pending p ids hp hid

theorem Aware.filter (ha : Aware watches h s) (hw : s.handlers h = .received id n e) :
    Aware watches h (s.setHandler h (if e ≠ watches h then .waiting id n else .reloading id n)) := by
  by_cases he : e = watches h
  · rw [if_neg (not_not.2 he)]
    refine .own s.bus fun id' n' hs _ => ?_
    cases hs
    exact .reloading n (update_self _ _ _)
  · rw [if_pos he]
    refine .own s.bus fun id' n' hs hb => ?_
    cases hs
    have hs : (s.handlers h).serving = some (id, n) := by rw [hw]; rfl
    refine (ha id n hs hb).moved ?_
    rw [hw]
    exact beq_eq_false_iff_ne.2 he
end

structure Inv (watches : H → EventType) (h : H) (s : State P H) : Prop where
  registered : Registered s
  aware : Aware watches h s

omit [DecidableEq P] [DecidableEq H] in
theorem Inv.init (watches : H → EventType) (h : H) : Inv watches h (State.init : State P H) where
  registered :=
    { below := fun _ _ hid => by cases hid
      live := fun _ _ hid => by cases hid
      inj := fun _ _ _ hid => by cases hid }
  aware := by
    intro id n hs
    cases hs

omit [DecidableEq H] in
theorem Inv.publisher {q : Publisher} {changes : List EventType} {readers : Finset P} (hi : Inv watches h s)
    (hn : bus.nextID = s.bus.nextID)
    (hl : ∀ id, (s.bus.subscribers id).isSome = true → (bus.subscribers id).isSome = true)
    (ha : Aware watches h (State.setPub ⟨changes, bus, readers, s.pubs, s.handlers⟩ p q)) :
    Inv watches h (State.setPub ⟨changes, bus, readers, s.pubs, s.handlers⟩ p q) where
  registered := hi.registered.of_subset hn (fun _ _ hid => hid) (fun _ id _ => hl id)
  aware := ha

section
omit [DecidableEq P]

theorem Inv.handler (bus : Bus) (hi : Inv watches h s) (hw : ∀ id, w.subID = some id → (s.handlers h').subID = some id)
    (hn : bus.nextID = s.bus.nextID)
    (hl : ∀ id, (s.bus.subscribers id).isSome = true → (bus.subscribers id).isSome = true)
    (hb : ∀ id, (s.handlers h').subID ≠ some id → bus.subscribers id = s.bus.subscribers id)
    (ho : h = h' → Aware watches h ({ s with bus }.setHandler h' w)) : Inv watches h ({ s with bus }.setHandler h' w) where
  registered := hi.registered.setHandler hw hn hl
  aware := by
    by_cases hh : h = h'
    · exact ho hh
    · refine hi.aware.other w hh fun id hid => hb id fun hid' => hh ?_
      exact hi.registered.inj h h' id hid hid'

theorem Inv.moves (hi : Inv watches h s) (hw : ∀ id, w.subID = some id → (s.handlers h').subID = some id)
    (ho : h = h' → Aware watches h (s.setHandler h' w)) : Inv watches h (s.setHandler h' w) :=
  hi.handler s.bus hw rfl (fun _ hid => hid) (fun _ _ => rfl) ho
end

theorem Inv.step {a : Act P H} (hi : Inv watches h s) (hok : Heard watches h s a)
    (hs : step watches s a = some s') : Inv watches h s' := by
  cases a with simp only [Watch.step] at hs
  | change p k =>
    split at hs
    · cases hs
      exact hi.publisher rfl (fun _ hid => hid) (hi.aware.change k ‹_›)
    · cases hs
  | lock p =>
    split at hs
    · cases hs
      exact hi.publisher rfl (fun _ hid => hid) (hi.aware.lock hi.registered ‹_›)
    · cases hs
  | offer p id =>
    split at hs
    · simp only [guarded] at hs
      obtain ⟨-, rfl⟩ := hs
      exact hi.publisher Bus.offer_nextID (fun _ => Bus.offer_isSome) (hi.aware.offer hi.registered ‹_› hok)
    · cases hs
  | unlock p =>
    split at hs
    · cases hs
      exact hi.publisher rfl (fun _ hid => hid) (hi.aware.unlock ‹_›)
    · cases hs
  | load h' | sendSnapshot h' =>
    split at hs
    · cases hs
      exact hi.moves (fun _ hid => by cases hid) fun hh => hh ▸ .own s.bus fun _ _ hsr => by cases hsr
    · cases hs
  | subscribe h' =>
    split at hs
    · rename_i sent hw
      simp only [guarded] at hs
      obtain ⟨-, rfl⟩ := hs
      refine ⟨hi.registered.subscribe sent, ?_⟩
      by_cases hh : h = h'
      · subst hh
        exact .subscribe hw hok
      · refine hi.aware.other _ hh fun id hid => ?_
        exact update_of_ne (Nat.ne_of_lt (hi.registered.below h id hid)) _ _
    · cases hs
  | receive h' =>
    split at hs
    · rename_i id sent hw
      obtain ⟨⟨e, bus⟩, hr, rfl⟩ := map_eq_some_iff.1 hs
      obtain ⟨ch, hch, rfl⟩ := Bus.receive_eq_some hr
      refine hi.handler _ (fun id' hid' => ?_) rfl (fun id' hl => ?_) (fun id' hid' => ?_) fun hh => ?_
      · rw [hw]
        exact hid'
      · by_cases hid : id' = id
        · subst hid
          simp only [update_self, isSome_some]
        · simpa only [update_of_ne hid] using hl
      · refine update_of_ne (fun hid => hid' ?_) _ _
        rw [hw, hid]
        rfl
      · subst hh
        exact hi.aware.receive hw hr
    · cases hs
  | filter h' =>
    split at hs
    · rename_i id sent e hw
      cases hs
      refine hi.moves (fun id' hid' => ?_) fun hh => ?_
      · rw [hw]
        split at hid' <;> exact hid'
      · subst hh
        exact hi.aware.filter hw
    · cases hs
  | reload h' =>
    split at hs
    · rename_i id sent hw
      cases hs
      refine hi.moves (fun id' hid' => hw ▸ hid') fun hh => ?_
      subst hh
      refine .own s.bus fun id' n hsr hb => ?_
      cases hsr
      exact absurd hb (not_behind_now s _)
    · cases hs
  | sendDelta h' =>
    split at hs
    · rename_i id sent at_ hw
      cases hs
      refine hi.moves (fun id' hid' => hw ▸ hid') fun hh => ?_
      subst hh
      refine .own s.bus fun id' n hsr hb => ?_
      refine (hi.aware id' n (hw ▸ hsr) hb).moved ?_
      rw [hw]
      rfl
    · cases hs
  | cancel h' =>
    split at hs
    · rename_i id sent hw
      cases hs
      exact hi.moves (fun id' hid' => hw ▸ hid') fun hh => hh ▸ .own s.bus fun _ _ hsr => by cases hsr
    · cases hs
  | unsubscribe h' =>
    split at hs
    · rename_i id hw
      simp only [guarded] at hs
      obtain ⟨-, rfl⟩ := hs
      refine ⟨hi.registered.unsubscribe hw, ?_⟩
      by_cases hh : h = h'
      · subst hh
        exact .own _ fun _ _ hsr => by cases hsr
      · refine hi.aware.other _ hh fun id' hid' => update_of_ne (fun heq => hh ?_) _ _
        subst heq
        refine hi.registered.inj h h' id' hid' ?_
        rw [hw]
        rfl
    · cases hs

end Steps

/-! ## Runs -/

/-- The publishers are done and `h` waits on an empty channel, having last sent a load of `sent`. -/
structure Quiet (s : State P H) (h : H) (sent : Nat) : Prop where
  pubs : ∀ p, s.pubs p = .idle
  waiting : ∃ id, s.handlers h = .waiting id sent ∧ s.bus.subscribers id = some []

omit [DecidableEq P] [DecidableEq H] in
theorem Quiet.not_noticed {watches : H → EventType} {s : State P H} {h : H} {sent : Nat} (hq : Quiet s h sent) :
    ∃ id, (s.handlers h).serving = some (id, sent) ∧ ¬ Noticed watches s h id := by
  obtain ⟨id, hw, he⟩ := hq.waiting
  refine ⟨id, by rw [hw]; rfl, fun hn => ?_⟩
  cases hn with
  | buffered ch hch hk =>
    rw [he] at hch
    cases hch
    cases hk
  | taken sent ht => cases hw.symm.trans ht
  | reloading sent hr => cases hw.symm.trans hr
  | unpublished p hp | pending p ids hp hid => cases (hq.pubs p).symm.trans hp

/-- **Watch streams lose no update they hear**: once everybody is done the last message of `h` was loaded after the last change
of its kind. -/
theorem watch_loses_no_update (watches : H → EventType) (h : H) (as : List (Act P H)) (s : State P H)
    (hrun : run (step watches) State.init as = some s)
    (hok : Along (step watches) (Heard watches h) State.init as) (sent : Nat) (hq : Quiet s h sent) :
    ¬ Behind s (watches h) sent := by
  have hi : Inv watches h s :=
    run_invariant_along (Inv watches h) (fun _ _ _ hi hok hs => hi.step hok hs) (Inv.init watches h) hok hrun
  obtain ⟨id, hserv, hnot⟩ : ∃ id, (s.handlers h).serving = some (id, sent) ∧ ¬ Noticed watches s h id :=
    hq.not_noticed
  exact fun hbehind => hnot (hi.aware id sent hserv hbehind)

def keyAndAPIKey : List (Act Bool Unit) :=
  [.load (), .sendSnapshot (), .subscribe (), .change true .keysChanged, .change false .apiKeysChanged,
    .lock false, .lock true, .offer true 0, .receive (), .offer false 0, .unlock true, .filter (), .reload (),
    .unlock false, .sendDelta (), .receive (), .filter ()]

theorem watch_loses_no_update_keyAndAPIKey :
    ∃ s, run (step fun _ => .keysChanged) State.init keyAndAPIKey = some s ∧
      Quiet s () 2 ∧ ¬ Behind s .keysChanged 2 := by
  have hrun : (run (step fun _ => .keysChanged) State.init keyAndAPIKey).map
      (fun s => (s.pubs true, s.pubs false, s.handlers (), s.bus.subscribers 0)) =
        some (.idle, .idle, .waiting 0 2, some []) := by decide +kernel
  obtain ⟨s, hs, hval⟩ := map_eq_some_iff.1 hrun
  simp only [Prod.mk.injEq] at hval
  obtain ⟨htrue, hfalse, hw, hch⟩ := hval
  have hq : Quiet s () 2 := ⟨fun p => by cases p <;> assumption, 0, hw, hch⟩
  exact ⟨s, hs, hq, watch_loses_no_update _ () keyAndAPIKey s hs (of_decide_eq_true (by decide +kernel)) 2 hq⟩

def revokedBeforeSubscribe : List (Act Unit Unit) :=
  [.load (), .change () .tokenRevocationsChanged, .lock (), .unlock (), .sendSnapshot (), .subscribe ()]

def revokedBehindOthers : List (Act Unit Unit) :=
  [.load (), .sendSnapshot (), .subscribe ()] ++
    (List.replicate 16 [.change () .tenantConfigChanged, .lock (), .offer () 0, .unlock ()]).flatten ++
    [.change () .tokenRevocationsChanged, .lock (), .offer () 0, .unlock ()] ++
    (List.replicate 16 [.receive (), .filter ()]).flatten

/-- **Bug**: a stream goes quiet on a message older than the last revocation, which fell between its snapshot and its
subscription, or whose event found the channel full. -/
theorem watch_misses_update :
    (∃ s, run (step fun _ => .tokenRevocationsChanged) State.init revokedBeforeSubscribe = some s ∧
      Quiet s () 0 ∧ Behind s .tokenRevocationsChanged 0) ∧
    ∃ s, run (step fun _ => .tokenRevocationsChanged) State.init revokedBehindOthers = some s ∧
      Quiet s () 0 ∧ Behind s .tokenRevocationsChanged 0 := by
  have hquiet : ∀ as : List (Act Unit Unit),
      (run (step fun _ => .tokenRevocationsChanged) State.init as).map
        (fun s => (s.pubs (), s.handlers (), s.bus.subscribers 0, decide (Behind s .tokenRevocationsChanged 0))) =
          some (.idle, .waiting 0 0, some [], true) →
      ∃ s, run (step fun _ => .tokenRevocationsChanged) State.init as = some s ∧
        Quiet s () 0 ∧ Behind s .tokenRevocationsChanged 0 := by
    intro as hrun
    obtain ⟨s, hs, hval⟩ := map_eq_some_iff.1 hrun
    simp only [Prod.mk.injEq] at hval
    obtain ⟨hp, hw, hch, hbehind⟩ := hval
    exact ⟨s, hs, ⟨fun _ => hp, 0, hw, hch⟩, of_decide_eq_true hbehind⟩
  exact ⟨hquiet _ (by decide +kernel), hquiet _ (by decide +kernel)⟩

end Sukko.Provisioning.Watch
