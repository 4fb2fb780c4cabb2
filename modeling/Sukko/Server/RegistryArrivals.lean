import Sukko.Server.RegistryEntries
/-
# Connections before they are registered

Only the one flush of the `connect` puts a connection into an index (`PendingOk`), one that is not owned is in no pipeline
(`unowned_effect`), and the pipeline writes the hash first (`HashFirst`).
-/

namespace Sukko.Registry
open Keyspace List Function
variable {π : Type} {cfg : RegistryConfig π} {ev : RegistryEvent} {cmd : Cmd GoStr} {job : Job} {a : Act π}

/-! ## Commands that put a connection into an index -/

def NoSadd (c : GoStr) (cmds : List (Cmd GoStr)) : Prop := ∀ key, .sadd key c ∉ cmds

variable {batch : List RegistryEvent} {c key : GoStr} {owned : Owned} {p q : π} {s s' : State π} {w w' : Writer}

theorem sadd_mem_flushEvent (h : .sadd key c ∈ (flushEvent cfg owned ev).2) : ev.connects c := by
  rcases mem_flushEvent h with ⟨hk, hc⟩ | ⟨hk, info, hc⟩ | ⟨-, -, heq⟩
  · rcases mem_connectCmds hc with ⟨fields, -, heq⟩ | heq | ⟨key', -, heq | heq⟩
    · cases heq
    · cases heq
    · cases heq
      exact ⟨hk, rfl⟩
    · cases heq
  · rcases mem_removeCmds hc with heq | ⟨key', -, heq⟩ <;> cases heq
  · cases heq

theorem connects_of_sadd (h : .sadd key c ∈ (flushBatch cfg owned batch).2) : ∃ ev ∈ batch, ev.connects c := by
  induction batch generalizing owned with
  | nil => cases h
  | cons ev batch ih =>
    rw [flushBatch_cons] at h
    rcases mem_append.1 h with h | h
    · exact ⟨ev, mem_cons_self, sadd_mem_flushEvent h⟩
    · obtain ⟨e, he, hc⟩ := ih h
      exact ⟨e, mem_cons_of_mem _ he, hc⟩

theorem noSadd_heartbeatCmds (p : π) (now : Time) (order : Owned) (drops : Nat) (adminHealthy : Bool) (c : GoStr) :
    NoSadd c (heartbeatCmds cfg p now order drops adminHealthy) := by
  intro key h
  rcases mem_heartbeatCmds h with ⟨e, -, heq⟩ | ⟨key', -, heq⟩ | ⟨fields, heq⟩ <;> cases heq

def HashFirst (cfg : RegistryConfig π) (c : GoStr) (cmds : List (Cmd GoStr)) : Prop :=
  ∃ before fields after, fields ≠ [] ∧ NoSadd c before ∧
    cmds = before ++ .hset (connKey cfg.environment c) fields :: .expire (connKey cfg.environment c) cfg.ttlSecs :: after

theorem hashFirst_flushBatch (h : ∃ ev ∈ batch, ev.connects c) : HashFirst cfg c (flushBatch cfg owned batch).2 := by
  induction batch generalizing owned with
  | nil => simp at h
  | cons ev batch ih =>
    rw [flushBatch_cons]
    by_cases hev : ev.connects c
    · obtain ⟨hk, rfl⟩ := hev
      have hc : (flushEvent cfg owned ev).2 = connectCmds cfg ev := by simp [flushEvent, hk]
      obtain ⟨fields, hne, heq⟩ := @connectCmds_eq π cfg ev
      obtain ⟨rest, hr⟩ : ∃ rest, connectCmds cfg ev = .hset (connKey cfg.environment ev.connID) fields ::
          .expire (connKey cfg.environment ev.connID) cfg.ttlSecs :: rest := ⟨_, heq⟩
      refine ⟨[], fields, rest ++ (flushBatch cfg (flushEvent cfg owned ev).1 batch).2, hne, by simp [NoSadd], ?_⟩
      rw [hc, hr]
      rfl
    · obtain ⟨e, he, hcn⟩ := h
      obtain ⟨before, fields, after, hne, hno, heq⟩ := @ih (flushEvent cfg owned ev).1
        ⟨e, (mem_cons.1 he).resolve_left fun heq => hev (heq ▸ hcn), hcn⟩
      refine ⟨(flushEvent cfg owned ev).2 ++ before, fields, after, hne, fun key hm => ?_, ?_⟩
      · rcases mem_append.1 hm with hm | hm
        · exact hev (sadd_mem_flushEvent hm)
        · exact hno key hm
      · rw [heq, append_assoc]

theorem HashFirst.cons {cmds : List (Cmd GoStr)} (h : HashFirst cfg c (cmd :: cmds)) :
    (∀ key, cmd ≠ .sadd key c) ∧ (HashFirst cfg c cmds ∨ ∃ fields after, fields ≠ [] ∧
      cmd = .hset (connKey cfg.environment c) fields ∧ cmds = .expire (connKey cfg.environment c) cfg.ttlSecs :: after) := by
  obtain ⟨before, fields, after, hne, hno, heq⟩ := h
  cases before with
  | nil =>
    cases heq
    exact ⟨by simp, .inr ⟨fields, after, hne, rfl, rfl⟩⟩
  | cons first before =>
    cases heq
    refine ⟨fun key heq => hno key (heq ▸ mem_cons_self), .inl ⟨before, fields, after, hne, fun key hm => ?_, rfl⟩⟩
    exact hno key (mem_cons_of_mem _ hm)

/-! ## A `connect` is flushed once -/

def PendingOk (w : Writer) : Prop := ∀ c, (∃ ev ∈ w.pending, ev.connects c) → Assoc.get w.owned c = none

section
variable (h : PendingOk w)
include h

theorem PendingOk.of_sub (hp : ∀ ev ∈ w'.pending, ev ∈ w.pending) (ho : w'.owned = w.owned) : PendingOk w' := by
  rintro c ⟨ev, hev, hc⟩
  rw [ho]
  exact h c ⟨ev, hp ev hev, hc⟩

theorem PendingOk.push (hev : ∀ c, ev.connects c → Assoc.get w.owned c = none) : PendingOk (w.push cfg ev) := by
  rintro c ⟨e, he, hc⟩
  rw [push_owned]
  rw [push_pending] at he
  split at he
  · rcases mem_append.1 he with he | he
    · exact h c ⟨e, he, hc⟩
    · exact hev c (mem_singleton.1 he ▸ hc)
  · exact h c ⟨e, he, hc⟩

theorem PendingOk.flush (hp : w.pending = batch ++ w.workChan) (hev : EventsOk s p w.pending) :
    PendingOk (w.flush cfg job batch) := by
  rintro c ⟨ev, hmm, hcn⟩
  have hm : ev ∈ w.workChan := hmm
  rw [hp] at hev
  by_contra ho
  rcases owned_or_connect_of_flushBatch ho with hold | ⟨e, he, hc⟩
  · refine hold (h c ⟨ev, ?_, hcn⟩)
    rw [hp]
    exact mem_append_right _ hm
  · -- no two events of the queue connect the same connection
    exact ((pairwise_append.1 hev.ordered).2.2 e he ev hm c hcn).1 hc

theorem PendingOk.local {now : Time} (hok : WriterOk cfg s p w) (hl : Local cfg p now w w') : PendingOk w' := by
  have hs : ∀ ev ∈ w'.pending, ev ∈ w.pending := fun ev hev => (hl.pending_sublist hok.batch).subset hev
  cases hl with
  | flush hp _ | drainFlush hp => exact h.flush (by simp [Writer.pending, hp]) hok.events
  | idle | cancel | receive _ _ | beat _ _ | heartbeat _ _ | restart _ | shutdown _ _ | drain _ _ | drainEmpty _ | sweep _ _
  | sweepEmpty _ _ => exact h.of_sub hs rfl

theorem PendingOk.finish {failed : Bool} (hok : WriterOk cfg s p w)
    (hp : w.phase = .pipeline job [] failed) : PendingOk (w.finish job failed) := by
  intro c hc
  rw [finish_pending hp hok.batch] at hc
  exact finish_owned (h c hc)

end

variable [DecidableEq π]

theorem pendingOk_effect (hi : Inv cfg s) (h : ∀ p, PendingOk (s.writers p)) (he : Effect cfg s a s') :
    ∀ p, PendingOk (s'.writers p) := by
  intro r
  have hset : ∀ {q : π} {w : Writer}, PendingOk w → PendingOk (Function.update s.writers q w r) := by
    intro q w hw
    rcases eq_or_ne r q with rfl | hne
    · rw [update_self]
      exact hw
    · rw [update_of_ne hne]
      exact h r
  cases he with
  | tick _ => exact h r
  | @connect q ev hn =>
    refine hset ((h q).push fun c hcn => ?_)
    by_contra how
    obtain ⟨info, ho⟩ := (hi.writers q).owned.at how
    have hid : ev.connID = c := hcn.2
    rw [← hid, hn] at ho
    cases ho
  | disconnect ho hcl => exact hset ((h _).push fun c hcn => (by cases hcn.1))
  | subscribe hcn hd => exact hset ((h _).push fun c hc => absurd hc.1 hcn)
  | writer hw => exact hset ((h _).local (hi.writers _) hw)
  | exec hp | stop hp _ => exact hset ((h _).of_sub (by simp [Writer.pending, hp]) rfl)
  | finish hp => exact hset ((h _).finish (hi.writers _) hp)

/-! ## A connection that is not owned -/

def Stays (s : State π) (p : π) (c : GoStr) : Prop := (∀ conn, s.opened c = some conn → conn.pod = p) ∧ ¬Leaving s p c

section
omit [DecidableEq π]

theorem Stays.before (h : Stays s' p c) (hg : Grows s s') : Stays s p c :=
  ⟨fun conn ho => h.1 conn (hg.opened _ _ ho), fun hl => h.2 (hl.mono hg)⟩

theorem Stays.opened (h : Stays s p c) (hat : At s q c) : q = p := by
  obtain ⟨info, ho⟩ := hat
  exact h.1 _ ho

theorem Stays.ne_sadd (h : Stays s p c) (hne : q ≠ p) (hl : Legal cfg s q cmd) (key : GoStr) : cmd ≠ .sadd key c := by
  rintro rfl
  cases hl with
  | sadd hat _ => exact hne (h.opened hat)
end

/-- **A connection that stays and is not owned** was not owned before, is in no pipeline, and no command puts it into an
index. -/
theorem unowned_effect (hi : Inv cfg s) (he : Effect cfg s a s') (hsy : Stays s' p c)
    (hg : Assoc.get (s'.writers p).owned c = none)
    (hno : Assoc.get (s.writers p).owned c = none → NoSadd c (s.writers p).cmds) :
    Assoc.get (s.writers p).owned c = none ∧ NoSadd c (s'.writers p).cmds ∧ (Outside s.db c → Outside s'.db c) := by
  have hst := hsy.before he.grows
  have hok := hi.writers p
  have hn : (s.writers p).phase.stopping = true → False := fun hs => hst.2 (.inr (hok.shut hs))
  cases seen_of_effect hi he p with
  | tick _ _ hs =>
    subst hs
    exact ⟨hg, hno hg, id⟩
  | quiet hp _ how _ hdb _ =>
    rw [how] at hg
    rw [Writer.cmds, hp, hdb]
    exact ⟨hg, hno hg, id⟩
  | own hl hdb _ =>
    rw [hdb]
    have hcn : (s'.writers p).cancelled ≠ true := fun hc => hsy.2 (.inr hc)
    generalize s'.writers p = w' at hl hg hcn
    cases hl with
    | flush hp _ =>
      have hev : EventsOk s p (s.writers p).batch := by
        have hpn := hok.events
        rw [Writer.pending, hp] at hpn
        exact hpn.sublist (sublist_append_left _ _)
      refine ⟨?_, fun key hm => ?_, id⟩
      · by_contra hon
        obtain ⟨info, hin⟩ := Option.ne_none_iff_exists'.1 hon
        exact absurd (hg.symm.trans (get_flushBatch_of_stay hev (hok.owned c info hin) hst.2 (.inl hin))) (by simp)
      · obtain ⟨ev, hm, hco⟩ := connects_of_sadd hm
        have ho := hev.connects ev hm hco.1
        rw [hco.2] at ho
        exact absurd (hg.symm.trans (get_flushBatch_of_stay hev ho hst.2 (.inr ⟨ev, hm, hco⟩))) (by simp)
    | receive hp _ => exact ⟨hg, by simp [NoSadd, Writer.cmds, hp], id⟩
    | idle => exact ⟨hg, hno hg, id⟩
    | beat _ _ | restart _ => exact ⟨hg, by simp [NoSadd, Writer.cmds], id⟩
    | heartbeat _ _ => exact ⟨hg, noSadd_heartbeatCmds _ _ _ _ _ c, id⟩
    | cancel => exact absurd rfl hcn
    | shutdown _ hc => exact absurd hc hcn
    | drain hp _ | drainEmpty hp | drainFlush hp | sweep hp _ | sweepEmpty hp _ =>
      exact absurd (by rw [hp]; rfl) hn
  | other hne hl hw hdb _ =>
    rw [hw] at hg ⊢
    refine ⟨hg, hno hg, fun hot => ?_⟩
    rw [hdb]
    exact hot.exec (hst.ne_sadd hne hl)
  | @exec outcome job cmd cmds failed hp hw hdb hnw =>
    rw [hw] at hg ⊢
    have hcm : NoSadd c (cmd :: cmds) := by
      have ha := hno hg
      rwa [Writer.cmds, hp] at ha
    refine ⟨hg, fun key hm => hcm key (mem_cons_of_mem _ hm), fun hot => ?_⟩
    rw [hdb]
    split
    · exact hot
    · exact hot.exec fun key heq => hcm key (heq ▸ mem_cons_self)
  | @finish job failed hp hw hdb hnw =>
    rw [hw] at hg ⊢
    rw [hdb]
    refine ⟨?_, by simp [NoSadd, finish_cmds], id⟩
    cases job with
    | sweep => exact absurd (by rw [hp]; rfl) hn
    | flush | flushBeforeHeartbeat | heartbeat _ | finalDrainFlush => cases failed <;> exact hg
  | stop _ hcn => exact absurd (.inr hcn) hst.2

end Sukko.Registry
