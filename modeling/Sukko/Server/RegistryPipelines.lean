import Sukko.Server.RegistryWriter
/-
# What the pipelines of a registry writer contain

Every command is about connections of the writer's own pod (`Legal`). A hash that a batch writes is owned afterwards or deleted
in the same pipeline (`closing_flushBatch`); a heartbeat renews every key of every owned connection.
-/

namespace Sukko.Registry
open Keyspace List
variable {π : Type} {cfg : RegistryConfig π}

/-! ## Legal commands -/

def At (s : State π) (p : π) (c : GoStr) : Prop := ∃ info, s.opened c = some ⟨p, info⟩

/-- The connection is going away, or the pod is. -/
def Leaving (s : State π) (p : π) (c : GoStr) : Prop := s.closed c = true ∨ (s.writers p).cancelled = true

def NoConn (cfg : RegistryConfig π) (key : GoStr) : Prop := ∀ c, connKey cfg.environment c ≠ key

inductive Legal (cfg : RegistryConfig π) (s : State π) (p : π) : Cmd GoStr → Prop
  | hset {c : GoStr} {fields : Assoc GoStr GoStr} (hat : At s p c) (hne : fields ≠ []) :
      Legal cfg s p (.hset (connKey cfg.environment c) fields)
  | health (fields : Assoc GoStr GoStr) : Legal cfg s p (.hset (healthKey cfg.environment (cfg.podID p)) fields)
  | expire {c : GoStr} (hat : At s p c) : Legal cfg s p (.expire (connKey cfg.environment c) cfg.ttlSecs)
  | expireOther {key : GoStr} {seconds : Int} (hkey : NoConn cfg key) (hsecs : cfg.ttlSecs ≤ seconds) :
      Legal cfg s p (.expire key seconds)
  | sadd {key c : GoStr} (hat : At s p c) (hkey : NoConn cfg key) : Legal cfg s p (.sadd key c)
  | del {c : GoStr} (hat : At s p c) (hleft : Leaving s p c) : Legal cfg s p (.del (connKey cfg.environment c))
  | srem {key c : GoStr} (hat : At s p c) (hleft : Leaving s p c) (hkey : NoConn cfg key) : Legal cfg s p (.srem key [c])

theorem noConn_tenantIdxKey (t : GoStr) : NoConn cfg (tenantIdxKey cfg.environment t) := fun c =>
  connKey_ne_tenantIdxKey cfg.environment c t

theorem noConn_apiKeyIdxKey (t k : GoStr) : NoConn cfg (apiKeyIdxKey cfg.environment t k) := fun c =>
  connKey_ne_apiKeyIdxKey cfg.environment c t k

theorem noConn_healthKey (p : GoStr) : NoConn cfg (healthKey cfg.environment p) := fun c =>
  connKey_ne_healthKey cfg.environment c p

variable {batch evs : List RegistryEvent} {c : GoStr} {cmd : Cmd GoStr} {ev : RegistryEvent} {order owned : Owned} {p : π}
  {s s' : State π} {seen seenAPI : List GoStr}

theorem Legal.at_of_key (h : Legal cfg s p cmd) (hk : cmd.key = connKey cfg.environment c) : At s p c := by
  cases h with
  | hset hat _ | expire hat | del hat _ => exact connKey_inj.1 hk ▸ hat
  | health fields => exact absurd hk.symm (noConn_healthKey _ c)
  | expireOther hno _ | sadd _ hno | srem _ _ hno => exact absurd hk.symm (hno c)

theorem Legal.expire_cases {key : GoStr} {seconds : Int} (h : Legal cfg s p (.expire key seconds)) :
    cfg.ttlSecs ≤ seconds ∧ (NoConn cfg key ∨ seconds = cfg.ttlSecs) := by
  cases h with
  | expire _ => exact ⟨Int.le_refl _, .inr rfl⟩
  | expireOther hno hs => exact ⟨hs, .inl hno⟩

theorem At.unique {q : π} (hp : At s p c) (hq : At s q c) : p = q := by
  obtain ⟨info, hp⟩ := hp
  obtain ⟨info', hq⟩ := hq
  rw [hp] at hq
  exact congrArg Conn.pod (Option.some.inj hq)

/-! ## Batches -/

def RegistryEvent.connects (ev : RegistryEvent) (c : GoStr) : Prop := ev.kind = .connect ∧ ev.connID = c
def RegistryEvent.disconnects (ev : RegistryEvent) (c : GoStr) : Prop := ev.kind = .disconnect ∧ ev.connID = c

instance (ev : RegistryEvent) (c : GoStr) : Decidable (ev.connects c) := inferInstanceAs (Decidable (_ ∧ _))
instance (ev : RegistryEvent) (c : GoStr) : Decidable (ev.disconnects c) := inferInstanceAs (Decidable (_ ∧ _))

def RegistryEvent.info (ev : RegistryEvent) : ConnOwnership := ⟨ev.tenantID, ev.apiKeyID⟩
def Precedes (a b : RegistryEvent) : Prop := ∀ c, b.connects c → ¬a.connects c ∧ ¬a.disconnects c

@[simp] theorem flushBatch_nil (owned : Owned) : flushBatch cfg owned [] = (owned, []) := rfl

theorem flushBatch_cons (owned : Owned) (ev : RegistryEvent) (batch : List RegistryEvent) : flushBatch cfg owned (ev :: batch) =
      ((flushBatch cfg (flushEvent cfg owned ev).1 batch).1,
        (flushEvent cfg owned ev).2 ++ (flushBatch cfg (flushEvent cfg owned ev).1 batch).2) := rfl

theorem get_flushEvent (owned : Owned) (ev : RegistryEvent) (c : GoStr) : Assoc.get (flushEvent cfg owned ev).1 c =
      if ev.connects c then some ev.info else if ev.disconnects c then none else Assoc.get owned c := by
  unfold flushEvent
  split
  · rename_i hk
    simp [RegistryEvent.connects, RegistryEvent.disconnects, RegistryEvent.info, hk, Assoc.get_set, eq_comm]
  · rename_i hk
    simp [RegistryEvent.connects, RegistryEvent.disconnects, hk, Assoc.get_erase, eq_comm]
  · rename_i hk
    cases Assoc.get owned ev.connID <;> simp [RegistryEvent.connects, RegistryEvent.disconnects, hk]
  · rename_i hk
    cases Assoc.get owned ev.connID <;> simp [RegistryEvent.connects, RegistryEvent.disconnects, hk]

variable {info : ConnOwnership}

theorem mem_flushEvent (h : cmd ∈ (flushEvent cfg owned ev).2) : (ev.kind = .connect ∧ cmd ∈ connectCmds cfg ev) ∨
    (ev.kind = .disconnect ∧ ∃ info, cmd ∈ removeCmds cfg ev.connID info) ∨
    (Assoc.get owned ev.connID ≠ none ∧ (flushEvent cfg owned ev).1 = owned ∧
      cmd = .hset (connKey cfg.environment ev.connID) (channelFields ev)) := by
  unfold flushEvent at h ⊢
  cases hk : ev.kind with
  | connect => exact .inl ⟨rfl, by simpa [hk] using h⟩
  | disconnect => exact .inr (.inl ⟨rfl, _, by simpa [hk] using h⟩)
  | subscribe | unsubscribe =>
    cases ho : Assoc.get owned ev.connID with
    | none => simp [hk, ho] at h
    | some info => exact .inr (.inr ⟨by simp, rfl, by simpa [hk, ho] using h⟩)

theorem mem_removeCmds {connID : GoStr} (h : cmd ∈ removeCmds cfg connID info) :
    cmd = .del (connKey cfg.environment connID) ∨ ∃ key, NoConn cfg key ∧ cmd = .srem key [connID] := by
  unfold removeCmds at h
  rcases mem_append.1 h with h | h
  · simp only [mem_cons, not_mem_nil, or_false] at h
    rcases h with h | h
    · exact .inl h
    · exact .inr ⟨_, noConn_tenantIdxKey _, h⟩
  · split at h
    · rw [mem_singleton] at h
      exact .inr ⟨_, noConn_apiKeyIdxKey _ _, h⟩
    · cases h

theorem mem_connectCmds (h : cmd ∈ connectCmds cfg ev) :
    (∃ fields, fields ≠ [] ∧ cmd = .hset (connKey cfg.environment ev.connID) fields) ∨
    cmd = .expire (connKey cfg.environment ev.connID) cfg.ttlSecs ∨
    ∃ key, NoConn cfg key ∧ (cmd = .sadd key ev.connID ∨ cmd = .expire key cfg.ttlSecs) := by
  unfold connectCmds at h
  rcases mem_append.1 h with h | h
  · simp only [mem_cons, not_mem_nil, or_false] at h
    rcases h with h | h | h | h
    · exact .inl ⟨_, by simp, h⟩
    · exact .inr (.inl h)
    · exact .inr (.inr ⟨_, noConn_tenantIdxKey _, .inl h⟩)
    · exact .inr (.inr ⟨_, noConn_tenantIdxKey _, .inr h⟩)
  · split at h
    · simp only [mem_cons, not_mem_nil, or_false] at h
      exact .inr (.inr ⟨_, noConn_apiKeyIdxKey _ _, h⟩)
    · cases h

theorem legal_connectCmds (hat : At s p ev.connID) (h : cmd ∈ connectCmds cfg ev) : Legal cfg s p cmd := by
  rcases mem_connectCmds h with ⟨fields, hne, rfl⟩ | rfl | ⟨key, hk, rfl | rfl⟩
  · exact .hset hat hne
  · exact .expire hat
  · exact .sadd hat hk
  · exact .expireOther hk (Int.le_refl _)

theorem legal_removeCmds (hat : At s p c) (hl : Leaving s p c) (h : cmd ∈ removeCmds cfg c info) : Legal cfg s p cmd := by
  rcases mem_removeCmds h with rfl | ⟨key, hk, rfl⟩
  · exact .del hat hl
  · exact .srem hat hl hk

structure EventsOk (s : State π) (p : π) (evs : List RegistryEvent) : Prop where
  connects : ∀ ev ∈ evs, ev.kind = .connect → s.opened ev.connID = some ⟨p, ev.info⟩
  disconnects : ∀ ev ∈ evs, ev.kind = .disconnect → At s p ev.connID ∧ s.closed ev.connID = true
  ordered : evs.Pairwise Precedes

def OwnedOk (s : State π) (p : π) (owned : Owned) : Prop := ∀ c info, Assoc.get owned c = some info → s.opened c = some ⟨p, info⟩

theorem EventsOk.tail (h : EventsOk s p (ev :: evs)) : EventsOk s p evs where
  connects := fun e he => h.connects e (List.mem_cons_of_mem _ he)
  disconnects := fun e he => h.disconnects e (List.mem_cons_of_mem _ he)
  ordered := (List.pairwise_cons.1 h.ordered).2

theorem ownedOk_flushEvent (h : EventsOk s p (ev :: evs)) (ho : OwnedOk s p owned) :
    OwnedOk s p (flushEvent cfg owned ev).1 := by
  intro c info hg
  rw [get_flushEvent] at hg
  split at hg
  · rename_i hc
    cases hg
    exact hc.2 ▸ h.connects ev mem_cons_self hc.1
  · split at hg
    · cases hg
    exact ho c info hg

theorem legal_flushBatch (h : EventsOk s p batch) (ho : OwnedOk s p owned) :
    OwnedOk s p (flushBatch cfg owned batch).1 ∧ ∀ cmd ∈ (flushBatch cfg owned batch).2, Legal cfg s p cmd := by
  induction batch generalizing owned with
  | nil => exact ⟨ho, by simp⟩
  | cons ev batch ih =>
    rw [flushBatch_cons]
    obtain ⟨how, hl⟩ := ih h.tail (ownedOk_flushEvent h ho)
    refine ⟨how, fun cmd hcm => ?_⟩
    rcases mem_append.1 hcm with hcm | hcm
    · rcases mem_flushEvent hcm with ⟨hk, hcm⟩ | ⟨hk, info, hcm⟩ | ⟨hg, -, rfl⟩
      · exact legal_connectCmds ⟨_, h.connects ev mem_cons_self hk⟩ hcm
      · obtain ⟨hat, hc⟩ := h.disconnects ev mem_cons_self hk
        exact legal_removeCmds hat (.inl hc) hcm
      · obtain ⟨info, hi⟩ := Option.ne_none_iff_exists'.1 hg
        exact .hset ⟨info, ho _ _ hi⟩ (by simp [channelFields])
    · exact hl cmd hcm

theorem flushBatch_untouched (hg : Assoc.get owned c = none) (hev : ∀ ev ∈ batch, ¬ev.connects c) :
    Assoc.get (flushBatch cfg owned batch).1 c = none ∧ ∀ cmd ∈ (flushBatch cfg owned batch).2,
      cmd.key = connKey cfg.environment c → cmd = .del (connKey cfg.environment c) ∧ ∃ ev ∈ batch, ev.disconnects c := by
  induction batch generalizing owned with
  | nil => exact ⟨hg, by simp⟩
  | cons ev batch ih =>
    rw [flushBatch_cons]
    have hnc := hev ev mem_cons_self
    have hs : Assoc.get (flushEvent cfg owned ev).1 c = none := by
      rw [get_flushEvent, if_neg hnc, hg, ite_self]
    obtain ⟨hr, hc⟩ := ih hs fun e he => hev e (mem_cons_of_mem _ he)
    refine ⟨hr, fun cmd hcm hky => ?_⟩
    rcases mem_append.1 hcm with hcm | hcm
    · rcases mem_flushEvent hcm with ⟨hk, hcm⟩ | ⟨hk, info, hcm⟩ | ⟨hne, -, rfl⟩
      · -- the commands of a `connect` name its own connection, which is another one
        rcases mem_connectCmds hcm with ⟨fields, -, rfl⟩ | rfl | ⟨key, hno, rfl | rfl⟩
        · exact absurd ⟨hk, connKey_inj.1 hky⟩ hnc
        · exact absurd ⟨hk, connKey_inj.1 hky⟩ hnc
        · exact absurd hky.symm (hno c)
        · exact absurd hky.symm (hno c)
      · rcases mem_removeCmds hcm with rfl | ⟨key, hno, rfl⟩
        · have hid : ev.connID = c := connKey_inj.1 hky
          exact ⟨by rw [hid], ev, mem_cons_self, hk, hid⟩
        · exact absurd hky.symm (hno c)
      · have hid : ev.connID = c := connKey_inj.1 hky
        exact absurd (hid ▸ hg) hne
    · obtain ⟨hd, e, he, hds⟩ := hc cmd hcm hky
      exact ⟨hd, e, mem_cons_of_mem _ he, hds⟩

theorem get_flushBatch_of_disconnect (ho : batch.Pairwise Precedes) (h : ∃ ev ∈ batch, ev.disconnects c) :
    Assoc.get (flushBatch cfg owned batch).1 c = none := by
  induction batch generalizing owned with
  | nil => simp at h
  | cons ev batch ih =>
    obtain ⟨hf, hr⟩ := pairwise_cons.1 ho
    by_cases hev : ev.disconnects c
    · have hnc : ¬ev.connects c := fun hc => by simpa [hev.1] using hc.1
      have hs : Assoc.get (flushEvent cfg owned ev).1 c = none := by
        rw [get_flushEvent, if_neg hnc, if_pos hev]
      rw [flushBatch_cons]
      exact (flushBatch_untouched hs fun e he hc => (hf e he c hc).2 hev).1
    · obtain ⟨e, he, hd⟩ := h
      rcases mem_cons.1 he with rfl | he
      · exact absurd hd hev
      · rw [flushBatch_cons]
        exact ih hr ⟨e, he, hd⟩

theorem get_flushBatch_of_connect (hi : ∀ ev ∈ batch, ev.connects c → ev.info = info)
    (hd : ∀ ev ∈ batch, ¬ev.disconnects c) (h : Assoc.get owned c = some info ∨ ∃ ev ∈ batch, ev.connects c) :
    Assoc.get (flushBatch cfg owned batch).1 c = some info := by
  induction batch generalizing owned with
  | nil => simpa using h
  | cons ev batch ih =>
    rw [flushBatch_cons]
    refine ih (fun e he => hi e (mem_cons_of_mem _ he)) (fun e he => hd e (mem_cons_of_mem _ he)) ?_
    rw [get_flushEvent, if_neg (hd ev mem_cons_self)]
    by_cases hev : ev.connects c
    · rw [if_pos hev, hi ev mem_cons_self hev]
      exact .inl rfl
    · rw [if_neg hev]
      refine h.imp_right ?_
      rintro ⟨e, he, hc⟩
      rcases mem_cons.1 he with rfl | he
      · exact absurd hc hev
      · exact ⟨e, he, hc⟩

theorem owned_or_del_flushBatch (hg : Assoc.get owned c ≠ none) : Assoc.get (flushBatch cfg owned batch).1 c ≠ none ∨
      .del (connKey cfg.environment c) ∈ (flushBatch cfg owned batch).2 := by
  induction batch generalizing owned with
  | nil => exact .inl hg
  | cons ev batch ih =>
    rw [flushBatch_cons]
    by_cases hd : ev.disconnects c
    · refine .inr (mem_append_left _ ?_)
      simp [flushEvent, hd.1, removeCmds, hd.2]
    · have hs : Assoc.get (flushEvent cfg owned ev).1 c ≠ none := by
        rw [get_flushEvent, if_neg hd]
        split
        · simp
        · exact hg
      exact (ih hs).imp_right (mem_append_right _)

def Closing (cfg : RegistryConfig π) (owned : Owned) : List (Cmd GoStr) → Prop
  | [] => True
  | cmd :: cmds =>
    (∀ c, cmd.key = connKey cfg.environment c → cmd ≠ .del (connKey cfg.environment c) →
      Assoc.get owned c ≠ none ∨ .del (connKey cfg.environment c) ∈ cmds) ∧ Closing cfg owned cmds

theorem closing_append {cmds cmds' : List (Cmd GoStr)} (h' : Closing cfg owned cmds')
    (h : ∀ cmd ∈ cmds, ∀ c, cmd.key = connKey cfg.environment c → cmd ≠ .del (connKey cfg.environment c) →
      Assoc.get owned c ≠ none ∨ .del (connKey cfg.environment c) ∈ cmds') : Closing cfg owned (cmds ++ cmds') := by
  induction cmds with
  | nil => exact h'
  | cons cmd cmds ih =>
    refine ⟨fun c hk hd => ?_, ih fun cmd' hc => h cmd' (mem_cons_of_mem _ hc)⟩
    exact (h cmd mem_cons_self c hk hd).imp_right (mem_append_right _)

theorem closing_flushBatch (owned : Owned) (batch : List RegistryEvent) :
    Closing cfg (flushBatch cfg owned batch).1 (flushBatch cfg owned batch).2 := by
  induction batch generalizing owned with
  | nil => trivial
  | cons ev batch ih =>
    rw [flushBatch_cons]
    refine closing_append (ih _) fun cmd hc c hky hd => owned_or_del_flushBatch ?_
    -- a command on the hash of `c` that does not delete it comes from an event that leaves `c` owned
    rcases mem_flushEvent hc with ⟨hk, hc⟩ | ⟨hk, info, hc⟩ | ⟨hne, heq, rfl⟩
    · have hid : ev.connID = c := by
        rcases mem_connectCmds hc with ⟨fields, -, rfl⟩ | rfl | ⟨key, hno, rfl | rfl⟩
        · exact connKey_inj.1 hky
        · exact connKey_inj.1 hky
        · exact absurd hky.symm (hno c)
        · exact absurd hky.symm (hno c)
      rw [get_flushEvent, if_pos ⟨hk, hid⟩]
      simp
    · rcases mem_removeCmds hc with rfl | ⟨key, hno, rfl⟩
      · exact absurd (by rw [connKey_inj.1 hky]) hd
      · exact absurd hky.symm (hno c)
    · have hid : ev.connID = c := connKey_inj.1 hky
      rw [heq, ← hid]
      exact hne

theorem connectCmds_sublist (h : ev ∈ batch) (hk : ev.kind = .connect) :
    (connectCmds cfg ev).Sublist (flushBatch cfg owned batch).2 := by
  induction batch generalizing owned with
  | nil => cases h
  | cons e batch ih =>
    rw [flushBatch_cons]
    rcases mem_cons.1 h with rfl | h
    · have hc : (flushEvent cfg owned ev).2 = connectCmds cfg ev := by simp [flushEvent, hk]
      exact hc ▸ sublist_append_left _ _
    · exact (ih h).trans (sublist_append_right _ _)

/-! ## Heartbeats and the sweep -/

theorem mem_renewals (h : cmd ∈ renewals cfg order seen seenAPI) :
    (∃ e ∈ order, cmd = .expire (connKey cfg.environment e.1) cfg.ttlSecs) ∨
      ∃ key, NoConn cfg key ∧ cmd = .expire key cfg.idxTTL := by
  induction order generalizing seen seenAPI with
  | nil => cases h
  | cons e order ih =>
    obtain ⟨connID, info⟩ := e
    simp only [renewals, mem_cons, mem_append] at h
    rcases h with rfl | (h | h) | h
    · exact .inl ⟨_, mem_cons_self, rfl⟩
    · split at h
      · cases h
      exact .inr ⟨_, noConn_tenantIdxKey _, mem_singleton.1 h⟩
    · split at h
      · cases h
      exact .inr ⟨_, noConn_apiKeyIdxKey _ _, mem_singleton.1 h⟩
    · refine (ih h).imp_left ?_
      rintro ⟨e, he, hc⟩
      exact ⟨e, mem_cons_of_mem _ he, hc⟩

theorem expire_conn_mem_renewals (h : (c, info) ∈ order) :
    .expire (connKey cfg.environment c) cfg.ttlSecs ∈ renewals cfg order seen seenAPI := by
  induction order generalizing seen seenAPI with
  | nil => cases h
  | cons e order ih =>
    rcases mem_cons.1 h with rfl | h
    · exact mem_cons_self
    · exact mem_cons_of_mem _ (mem_append_right _ (ih h))

theorem expire_tenant_mem_renewals (h : (c, info) ∈ order) (hs : info.tenantID ∉ seen) :
    .expire (tenantIdxKey cfg.environment info.tenantID) cfg.idxTTL ∈ renewals cfg order seen seenAPI := by
  induction order generalizing seen seenAPI with
  | nil => cases h
  | cons e order ih =>
    obtain ⟨c', info'⟩ := e
    simp only [renewals, mem_cons, mem_append]
    by_cases ht : info'.tenantID = info.tenantID
    · refine .inr (.inl (.inl ?_))
      rw [ht, if_neg hs]
      exact mem_singleton_self _
    · rcases mem_cons.1 h with heq | h
      · cases heq
        exact absurd rfl ht
      · refine .inr (.inr (ih h ?_))
        simpa [Ne.symm ht] using hs

theorem expire_apiKey_mem_renewals (h : (c, info) ∈ order) (hk : info.apiKeyID ≠ [])
    (hsn : apiKeyIdxKey cfg.environment info.tenantID info.apiKeyID ∉ seenAPI) :
    .expire (apiKeyIdxKey cfg.environment info.tenantID info.apiKeyID) cfg.idxTTL ∈ renewals cfg order seen seenAPI := by
  induction order generalizing seen seenAPI with
  | nil => cases h
  | cons e order ih =>
    obtain ⟨c', info'⟩ := e
    simp only [renewals, mem_cons, mem_append]
    by_cases hs : info'.apiKeyID ≠ [] ∧ apiKeyIdxKey cfg.environment info'.tenantID info'.apiKeyID =
        apiKeyIdxKey cfg.environment info.tenantID info.apiKeyID
    · refine .inr (.inl (.inr ?_))
      rw [hs.2, if_neg (by simp [hs.1, hsn])]
      exact mem_singleton_self _
    · rcases mem_cons.1 h with heq | h
      · cases heq
        exact absurd ⟨hk, rfl⟩ hs
      · refine .inr (.inr (ih h ?_))
        split
        · exact hsn
        · rename_i hne
          rw [mem_cons, not_or]
          exact ⟨fun heq => hs ⟨hne, heq.symm⟩, hsn⟩

theorem mem_sweepCmds : cmd ∈ sweepCmds cfg order ↔ ∃ c info, (c, info) ∈ order ∧ cmd ∈ removeCmds cfg c info := by
  simp [sweepCmds]

/-! ## What only grows -/

structure Grows (s s' : State π) : Prop where
  opened : ∀ c conn, s.opened c = some conn → s'.opened c = some conn
  closed : ∀ c, s.closed c = true → s'.closed c = true
  cancelled : ∀ p, (s.writers p).cancelled = true → (s'.writers p).cancelled = true
  now : s.now ≤ s'.now

section
variable (hg : Grows s s')
include hg

theorem At.mono (h : At s p c) : At s' p c := by
  obtain ⟨info, h⟩ := h
  exact ⟨info, hg.opened c _ h⟩

theorem Leaving.mono (h : Leaving s p c) : Leaving s' p c := h.imp (hg.closed c) (hg.cancelled p)

theorem Legal.mono (h : Legal cfg s p cmd) : Legal cfg s' p cmd := by
  cases h with
  | hset hat hne => exact .hset (hat.mono hg) hne
  | health fields => exact .health fields
  | expire hat => exact .expire (hat.mono hg)
  | expireOther hk hs => exact .expireOther hk hs
  | sadd hat hk => exact .sadd (hat.mono hg) hk
  | del hat hl => exact .del (hat.mono hg) (hl.mono hg)
  | srem hat hl hk => exact .srem (hat.mono hg) (hl.mono hg) hk

theorem EventsOk.mono (h : EventsOk s p evs) : EventsOk s' p evs where
  connects := fun ev hev hk => hg.opened _ _ (h.connects ev hev hk)
  disconnects := fun ev hev hk => (h.disconnects ev hev hk).imp (At.mono hg) (hg.closed _)
  ordered := h.ordered

theorem OwnedOk.mono (h : OwnedOk s p owned) : OwnedOk s' p owned := fun c info hgt => hg.opened c _ (h c info hgt)

end

theorem EventsOk.sublist {evs' : List RegistryEvent} (h : EventsOk s p evs) (hs : evs'.Sublist evs) : EventsOk s p evs' where
  connects := fun ev hev => h.connects ev (hs.subset hev)
  disconnects := fun ev hev => h.disconnects ev (hs.subset hev)
  ordered := h.ordered.sublist hs

end Sukko.Registry
