import Sukko.Provisioning.ConnectionListing
import Sukko.Server.RegistryArrivals
/-
# Listings and the connections they must not lose

A listing that removes a connection from an index removes it for good. No listing meets it before its hash is there (`Unseen`),
and from then on the hash lasts if the pod heartbeats and no `HGETALL` of it fails (`Answered`).
-/

namespace Sukko.ConnectionListing
open Keyspace Registry Steps List Function Option
variable {π ρ : Type} {cfg : RegistryConfig π} {parseTime : GoStr → Option Time} {e : GoStr × List GoStr}

/-! ## What an `SREM` leaves alone -/

theorem Query.noConn (q : Query) : NoConn cfg (q.idxKey cfg.environment) := by
  unfold Query.idxKey
  split
  · exact noConn_apiKeyIdxKey _ _
  · exact noConn_tenantIdxKey _

variable {db : Db GoStr} {later : ρ → Prop}

section Srem
variable {s : Registry.State π} {p : π} {c key : GoStr} {info : ConnOwnership} {ids : List GoStr}

theorem inv_srem (h : Inv cfg s) (hk : NoConn cfg key) : Inv cfg { s with db := s.db.exec s.now (.srem key ids) } where
  writers := by
    intro q
    have hg : Grows s { s with db := s.db.exec s.now (.srem key ids) } :=
      ⟨fun _ _ h => h, fun _ h => h, fun _ h => h, Int.le_refl _⟩
    exact (h.writers q).mono hg
  hashes := fun c => (h.hashes c).exec (by simp)
  sets := fun key' hno hh => (h.sets key' hno hh).exec (by simp)
  bounded := fun c => (h.bounded c).exec (by simp)
  stored := by
    intro c hc
    have hne : (Cmd.srem key ids).key ≠ connKey cfg.environment c := fun heq => hk c heq.symm
    have hc' : s.db.exec s.now (.srem key ids) (connKey cfg.environment c) ≠ none := hc
    rw [exec_of_ne hne] at hc'
    exact h.stored c hc'
  closed := h.closed

theorem until_srem {now t : Time} {m : Mark} (h : m.Until cfg c info db t) (hk : NoConn cfg key) (hi : c ∉ ids)
    (hn : now ≤ t) : m.Until cfg c info (db.exec now (.srem key ids)) t := by
  cases m with
  | conn => exact HashUntil.exec h hn fun heq => absurd heq.symm (hk c)
  | tenant | apiKey => exact MemberUntil.exec h hn fun heq => .inr (.inl ⟨ids, congrArg (Cmd.srem · ids) heq, hi⟩)

theorem registered_srem (h : Registered cfg p c info s) (hk : NoConn cfg key) (hi : c ∉ ids) :
    Registered cfg p c info { s with db := s.db.exec s.now (.srem key ids) } where
  owned := h.owned
  marks := fun m hm => until_srem (h.marks m hm) hk hi (now_le_horizon _ _)
  beat := fun began cmds hp m hm => (h.beat began cmds hp m hm).imp_left fun hu =>
    until_srem hu hk hi (le_max_right _ _)

theorem registering_srem (h : Registering cfg p c s) (hk : NoConn cfg key)
    (hi : ∀ info job cmds, s.opened c = some ⟨p, info⟩ → ¬Leaving s p c → (s.writers p).phase = .pipeline job cmds false →
      job = .flush ∨ job = .flushBeforeHeartbeat → (∃ ev ∈ (s.writers p).batch, ev.connects c) → c ∉ ids) :
    Registering cfg p c { s with db := s.db.exec s.now (.srem key ids) } := by
  intro info job cmds ho hst hp hj hc
  obtain ⟨how, hs⟩ := h info job cmds ho hst hp hj hc
  have hn := hi info job cmds ho hst hp hj hc
  refine ⟨how, fun m hm => ?_⟩
  cases hs m hm with
  | ahead hw hsb => exact .ahead hw hsb
  | made hu hmm => exact .made (until_srem hu hk hn (Int.le_refl _)) hmm
  | done hu => exact .done (until_srem hu hk hn (now_le_horizon _ _))

end Srem

variable [DecidableEq π] [DecidableEq ρ]

/-! ## Steps -/

inductive Moves (cfg : RegistryConfig π) (parseTime : GoStr → Option Time) (σ : State π ρ) : Act π ρ → State π ρ → Prop
  | writer {a : Registry.Act π} {reg : Registry.State π} (he : Registry.Effect cfg σ.reg a reg) :
      Moves cfg parseTime σ (.writer a) { σ with reg := reg }
  | call {r : ρ} {a : CallAct} {call : Call} {spawned : List (GoStr × List GoStr)}
      (hm : CallMove cfg parseTime σ.reg.db σ.reg.now (σ.calls r) a call spawned) :
      Moves cfg parseTime σ (.call r a) { σ with calls := Function.update σ.calls r call, lazy := σ.lazy ++ spawned }
  | lost {e : GoStr × List GoStr} {outcome : Outcome} : Moves cfg parseTime σ (.srem e outcome) { σ with lazy := σ.lazy.erase e }
  | srem {e : GoStr × List GoStr} {outcome : Outcome} (hmem : e ∈ σ.lazy) :
      Moves cfg parseTime σ (.srem e outcome)
        { σ with reg := { σ.reg with db := σ.reg.db.exec σ.reg.now (.srem e.1 e.2) }, lazy := σ.lazy.erase e }

variable {σ σ' : State π ρ} {a : Act π ρ}

theorem moves_of_step (h : step cfg parseTime σ a = some σ') : Moves cfg parseTime σ a σ' := by
  cases a with
  | writer a =>
    obtain ⟨reg, hr, rfl⟩ := map_eq_some_iff.1 h
    exact .writer (effect_of_step hr)
  | call r a =>
    obtain ⟨⟨call, spawned⟩, hc, rfl⟩ := map_eq_some_iff.1 h
    exact .call (callMove_of_callStep hc)
  | srem e outcome =>
    simp only [step] at h
    split at h
    · rename_i hm
      cases h
      by_cases hl : outcome = .lost
      · rw [if_pos hl]
        exact .lost
      · rw [if_neg hl]
        exact .srem hm
    · cases h

theorem Moves.grows (h : Moves cfg parseTime σ a σ') : Grows σ.reg σ'.reg := by
  cases h with
  | writer he => exact he.grows
  | call _ | lost | srem _ => exact ⟨fun _ _ h => h, fun _ h => h, fun _ h => h, Int.le_refl _⟩

structure Sound (cfg : RegistryConfig π) (σ : State π ρ) : Prop where
  inv : Inv cfg σ.reg
  pending : ∀ p, PendingOk (σ.reg.writers p)
  batch : ∀ p, BatchOk σ.reg p
  keys : ∀ e ∈ σ.lazy, NoConn cfg e.1

omit [DecidableEq π] [DecidableEq ρ] in
theorem CallMove.spawned {now : Time} {call call' : Call} {a : CallAct} {spawned : List (GoStr × List GoStr)}
    (h : CallMove cfg parseTime db now call a call' spawned) (he : e ∈ spawned) :
    ∃ q valid stale, call = .hashes q [] valid stale ∧ e = (q.idxKey cfg.environment, stale) := by
  cases h with
  | collect =>
    split at he
    · cases he
    exact ⟨_, _, _, rfl, mem_singleton.1 he⟩
  | start _ | error _ | empty _ _ | members _ | stale _ | valid | health | finish => cases he

theorem Sound.moves (h : Sound cfg σ) (hm : Moves cfg parseTime σ a σ') : Sound cfg σ' := by
  cases hm with
  | writer he => exact ⟨h.inv.effect he, pendingOk_effect h.inv h.pending he, fun p => (h.batch p).effect h.inv he, h.keys⟩
  | call hm =>
    refine ⟨h.inv, h.pending, h.batch, forall_mem_append.2 ⟨h.keys, fun e he => ?_⟩⟩
    obtain ⟨q, valid, stale, -, rfl⟩ := hm.spawned he
    exact q.noConn
  | lost => exact ⟨h.inv, h.pending, h.batch, fun e he => h.keys e (mem_of_mem_erase he)⟩
  | srem hmm =>
    exact ⟨inv_srem h.inv (h.keys _ hmm), h.pending, h.batch, fun e he => h.keys e (mem_of_mem_erase he)⟩

omit [DecidableEq π] [DecidableEq ρ] in
theorem sound_init (now : Time) : Sound cfg (init now : State π ρ) where
  inv := inv_init now
  pending := by
    rintro p c ⟨ev, hev, -⟩
    cases hev
  batch := fun p ev hev => (by cases hev)
  keys := fun e he => (by cases he)

theorem sound_run {now : Time} {as : List (Act π ρ)} {σ : State π ρ} (h : run (step cfg parseTime) (init now) as = some σ) :
    Sound cfg σ :=
  run_invariant (Sound cfg) (fun _ _ _ hs hst => hs.moves (moves_of_step hst)) (sound_init now) h

/-! ## Connections that no listing has met, and connections that none removes -/

def Call.Touches (c : GoStr) : Call → Prop
  | .hashes _ left _ stale => c ∈ left ∨ c ∈ stale
  | _ => False

def Call.Drops (c : GoStr) : Call → Prop
  | .hashes _ _ _ stale => c ∈ stale
  | _ => False

def Call.next : Call → Option GoStr
  | .hashes _ left _ _ => left.head?
  | _ => none

structure Unseen (σ : State π ρ) (c : GoStr) : Prop where
  db : Outside σ.reg.db c
  calls : ∀ r, ¬(σ.calls r).Touches c
  lazy : ∀ e ∈ σ.lazy, c ∉ e.2

structure Spared (σ : State π ρ) (c : GoStr) : Prop where
  calls : ∀ r, ¬(σ.calls r).Drops c
  lazy : ∀ e ∈ σ.lazy, c ∉ e.2

section Calls
variable {σ : State π ρ} {c : GoStr} {r : ρ} {a : CallAct} {call' : Call} {spawned : List (GoStr × List GoStr)}
omit [DecidableEq π]

omit [DecidableEq ρ] in
theorem Unseen.spared (h : Unseen σ c) : Spared σ c := by
  refine ⟨fun r hd => h.calls r ?_, h.lazy⟩
  cases hc : σ.calls r with
  | hashes q left valid stale =>
    rw [hc] at hd
    exact .inr hd
  | idle | started _ | health _ _ _ _ | done _ _ =>
    rw [hc] at hd
    exact hd

theorem forall_update {P : Call → Prop} (h : ∀ r, ¬P (σ.calls r)) (hn : ¬P call') (r' : ρ) :
    ¬P (Function.update σ.calls r call' r') := by
  rcases eq_or_ne r' r with rfl | hne
  · rwa [update_self]
  · rw [update_of_ne hne]
    exact h r'

omit [DecidableEq ρ] in
theorem lazy_call (h : ∀ e ∈ σ.lazy, c ∉ e.2) (hd : ¬(σ.calls r).Drops c)
    (hm : CallMove cfg parseTime σ.reg.db σ.reg.now (σ.calls r) a call' spawned) : ∀ e ∈ σ.lazy ++ spawned, c ∉ e.2 := by
  refine forall_mem_append.2 ⟨h, fun e he => ?_⟩
  obtain ⟨q, valid, stale, hc, rfl⟩ := hm.spawned he
  rw [hc] at hd
  exact hd

theorem Unseen.call (h : Unseen σ c) (hm : CallMove cfg parseTime σ.reg.db σ.reg.now (σ.calls r) a call' spawned) :
    Unseen { σ with calls := Function.update σ.calls r call', lazy := σ.lazy ++ spawned } c := by
  refine ⟨h.db, forall_update h.calls ?_, lazy_call h.lazy (h.spared.calls r) hm⟩
  have hn := h.calls r
  generalize σ.calls r = old at hm hn
  cases hm with
  | start _ | error _ | empty _ _ | collect | health | finish => exact id
  | members hp =>
    rintro (hmm | hmm)
    · exact h.db.not_mem_smembers _ _ (hp.subset hmm)
    · cases hmm
  | stale _ =>
    rintro (hmm | hmm)
    · exact hn (.inl (mem_cons_of_mem _ hmm))
    · rcases mem_append.1 hmm with hmm | hmm
      · exact hn (.inr hmm)
      · exact hn (.inl (mem_singleton.1 hmm ▸ mem_cons_self))
  | valid =>
    rintro (hmm | hmm)
    · exact hn (.inl (mem_cons_of_mem _ hmm))
    · exact hn (.inr hmm)

omit [DecidableEq ρ] in
theorem ne_of_stale {now : Time} {connID : GoStr} {ok : Bool} (hh : HashUntil db (connKey cfg.environment c) now)
    (hok : ok = false → connID ≠ c) (hn : ok = false ∨ db.hgetall now (connKey cfg.environment connID) = []) :
    connID ≠ c := by
  rcases hn with hf | hnl
  · exact hok hf
  · rintro rfl
    exact hh.hgetall_ne_nil (Int.le_refl _) hnl

theorem Spared.call (h : Spared σ c) (hm : CallMove cfg parseTime σ.reg.db σ.reg.now (σ.calls r) a call' spawned)
    (hh : HashUntil σ.reg.db (connKey cfg.environment c) σ.reg.now)
    (hok : a = .hgetall false → (σ.calls r).next ≠ some c) :
    Spared { σ with calls := Function.update σ.calls r call', lazy := σ.lazy ++ spawned } c := by
  refine ⟨forall_update h.calls ?_, lazy_call h.lazy (h.calls r) hm⟩
  have hn := h.calls r
  generalize σ.calls r = old at hm hn hok
  cases hm with
  | start _ | error _ | empty _ _ | collect | health | finish => exact id
  | members _ => exact not_mem_nil
  | stale hs =>
    have hne := ne_of_stale hh (fun hf heq => hok (by rw [hf]) (congrArg some heq)) hs
    intro hmm
    rcases mem_append.1 hmm with hmm | hmm
    · exact hn hmm
    · exact hne (mem_singleton.1 hmm).symm
  | valid => exact hn

end Calls

/-! ## Up to the end of the flush -/

/-- The conditions on a step: the pod heartbeats, and no `HGETALL` of the connection fails. -/
def Answered (cfg : RegistryConfig π) (p : π) (c : GoStr) (σ : State π ρ) : Act π ρ → Prop
  | .writer a => Beats cfg p σ.reg a
  | .call r (.hgetall false) => (σ.calls r).next ≠ some c
  | _ => True

omit [DecidableEq π] [DecidableEq ρ] in
instance (p : π) (c : GoStr) (σ : State π ρ) (a : Act π ρ) : Decidable (Answered cfg p c σ a) :=
  match a with
  | .writer a => inferInstanceAs (Decidable (Beats cfg p σ.reg a))
  | .call _ (.hgetall false) => inferInstanceAs (Decidable (_ ≠ _))
  | .call _ (.hgetall true) | .call _ (.start _) | .call _ (.smembers _) | .call _ (.collect _) | .call _ (.health _)
  | .call _ .finish | .srem _ _ => isTrue trivial

inductive Introduced (cfg : RegistryConfig π) (p : π) (c : GoStr) (σ : State π ρ) (cmds : List (Cmd GoStr)) : Prop
  | ahead (hu : Unseen σ c) (hfirst : HashFirst cfg c cmds)
  | made (hu : Unseen σ c) (hhash : HashUntil σ.reg.db (connKey cfg.environment c) σ.reg.now) {after : List (Cmd GoStr)}
      (hcmds : cmds = .expire (connKey cfg.environment c) cfg.ttlSecs :: after)
  | there (hs : Spared σ c)
      (hhash : HashUntil σ.reg.db (connKey cfg.environment c) ((σ.reg.writers p).horizon cfg σ.reg.now))

structure Tracked (cfg : RegistryConfig π) (p : π) (c : GoStr) (σ : State π ρ) : Prop where
  unowned : Assoc.get (σ.reg.writers p).owned c = none → Unseen σ c ∧ NoSadd c (σ.reg.writers p).cmds
  flushing : ∀ job cmds, (σ.reg.writers p).phase = .pipeline job cmds false → job = .flush ∨ job = .flushBeforeHeartbeat →
    (∃ ev ∈ (σ.reg.writers p).batch, ev.connects c) → Introduced cfg p c σ cmds

section Tracked
variable {σ σ' : State π ρ} {p : π} {c : GoStr} {cmds : List (Cmd GoStr)} {reg : Registry.State π}

section
omit [DecidableEq π] [DecidableEq ρ]

theorem Introduced.spared (h : Introduced cfg p c σ cmds) : Spared σ c := by
  cases h with
  | ahead hu _ | made hu _ _ => exact hu.spared
  | there hs _ => exact hs

theorem Unseen.of_db (h : Unseen σ c) (hdb : Outside reg.db c) : Unseen { σ with reg := reg } c := ⟨hdb, h.calls, h.lazy⟩
end

omit [DecidableEq π] in
theorem Tracked.call {r : ρ} {a : CallAct} {call' : Call} {spawned : List (GoStr × List GoStr)} (h : Tracked cfg p c σ)
    (hok : Answered cfg p c σ (.call r a))
    (hm : CallMove cfg parseTime σ.reg.db σ.reg.now (σ.calls r) a call' spawned) :
    Tracked cfg p c { σ with calls := Function.update σ.calls r call', lazy := σ.lazy ++ spawned } := by
  refine ⟨fun hg => (h.unowned hg).imp_left fun hu => hu.call hm, fun job cmds hp hj hcn => ?_⟩
  cases h.flushing job cmds hp hj hcn with
  | ahead hu hf => exact .ahead (hu.call hm) hf
  | made hu hh hc => exact .made (hu.call hm) hh hc
  | there hs hh =>
    refine .there (hs.call hm (hh.mono (now_le_horizon _ _)) ?_) hh
    rintro rfl
    exact hok

section
omit [DecidableEq π] [DecidableEq ρ]

theorem Spared.erase (h : Spared σ c) (e : GoStr × List GoStr) : Spared { σ with reg := reg, lazy := σ.lazy.erase e } c :=
  ⟨h.calls, fun e' he' => h.lazy e' (mem_of_mem_erase he')⟩

theorem Unseen.erase (h : Unseen σ c) (hdb : Outside reg.db c) (e : GoStr × List GoStr) :
    Unseen { σ with reg := reg, lazy := σ.lazy.erase e } c :=
  ⟨hdb, h.calls, fun e' he' => h.lazy e' (mem_of_mem_erase he')⟩

theorem Tracked.erase (h : Tracked cfg p c σ) (e : GoStr × List GoStr) : Tracked cfg p c { σ with lazy := σ.lazy.erase e } := by
  refine ⟨fun hg => (h.unowned hg).imp_left fun hu => hu.erase hu.db e, fun job cmds hp hj hcn => ?_⟩
  cases h.flushing job cmds hp hj hcn with
  | ahead hu hf => exact .ahead (hu.erase hu.db e) hf
  | made hu hh hc => exact .made (hu.erase hu.db e) hh hc
  | there hs hh => exact .there (hs.erase e) hh

theorem Tracked.srem (h : Tracked cfg p c σ) (hk : NoConn cfg e.1) : Tracked cfg p c
      { σ with reg := { σ.reg with db := σ.reg.db.exec σ.reg.now (.srem e.1 e.2) }, lazy := σ.lazy.erase e } := by
  have hne : (Cmd.srem e.1 e.2).key ≠ connKey cfg.environment c := fun heq => hk c heq.symm
  have hhs : ∀ {t : Time}, HashUntil σ.reg.db (connKey cfg.environment c) t → σ.reg.now ≤ t →
      HashUntil (σ.reg.db.exec σ.reg.now (.srem e.1 e.2)) (connKey cfg.environment c) t := fun hh hle =>
    hh.exec hle fun heq => absurd heq hne
  have hun : Unseen σ c →
      Unseen { σ with reg := { σ.reg with db := σ.reg.db.exec σ.reg.now (.srem e.1 e.2) }, lazy := σ.lazy.erase e } c :=
    fun hu => hu.erase (hu.db.exec (by simp)) e
  refine ⟨fun hg => (h.unowned hg).imp_left hun, fun job cmds hp hj hcn => ?_⟩
  cases h.flushing job cmds hp hj hcn with
  | ahead hu hf => exact .ahead (hun hu) hf
  | made hu hh hc => exact .made (hun hu) (hhs hh (Int.le_refl _)) hc
  | there hs hh => exact .there (hs.erase e) (hhs hh (now_le_horizon _ _))

theorem Introduced.frame (h : Introduced cfg p c σ cmds) (ho : Outside σ.reg.db c → Outside reg.db c)
    (hm : HashUntil σ.reg.db (connKey cfg.environment c) σ.reg.now → .expire (connKey cfg.environment c) cfg.ttlSecs ∈ cmds →
      HashUntil reg.db (connKey cfg.environment c) reg.now)
    (ht : HashUntil σ.reg.db (connKey cfg.environment c) ((σ.reg.writers p).horizon cfg σ.reg.now) →
      HashUntil reg.db (connKey cfg.environment c) ((reg.writers p).horizon cfg reg.now)) :
    Introduced cfg p c { σ with reg := reg } cmds := by
  cases h with
  | ahead hu hf => exact .ahead (hu.of_db (ho hu.db)) hf
  | made hu hh hc => exact .made (hu.of_db (ho hu.db)) (hm hh (hc ▸ mem_cons_self)) hc
  | there hs hh => exact .there ⟨hs.calls, hs.lazy⟩ (ht hh)

theorem Introduced.exec {cmd : Cmd GoStr} (h : Introduced cfg p c σ (cmd :: cmds)) (hs : Sound cfg σ)
    (hl : Legal cfg σ.reg p cmd) (hat : At σ.reg p c) (hst : ¬Leaving σ.reg p c)
    (hdb : reg.db = σ.reg.db.exec σ.reg.now cmd) (hnw : reg.now = σ.reg.now)
    (hb : (reg.writers p).lastBeat = (σ.reg.writers p).lastBeat) : Introduced cfg p c { σ with reg := reg } cmds := by
  have hh : (reg.writers p).horizon cfg reg.now = (σ.reg.writers p).horizon cfg σ.reg.now := by
    rw [hnw, Writer.horizon, hb]
    rfl
  have hle := @horizon_le π cfg _ _ (hs.inv.writers p).lastBeat
  cases h with
  | ahead hu hf =>
    obtain ⟨hne, hn⟩ := hf.cons
    have hu' : Unseen { σ with reg := reg } c := hu.of_db (hdb ▸ hu.db.exec hne)
    rcases hn with hf | ⟨fields, after, hfl, rfl, rfl⟩
    · exact .ahead hu' hf
    · refine .made hu' ?_ rfl
      show HashUntil reg.db (connKey cfg.environment c) reg.now
      rw [hdb, hnw]
      exact hashUntil_hset (hs.inv.hashes c) hfl
  | made hu hhs hc =>
    cases hc
    refine .there ⟨hu.spared.calls, hu.spared.lazy⟩ ?_
    show HashUntil reg.db (connKey cfg.environment c) ((reg.writers p).horizon cfg reg.now)
    rw [hh, hdb]
    exact (hhs.expire cfg.ttlSecs_pos).mono hle
  | there hsp hhs =>
    refine .there ⟨hsp.calls, hsp.lazy⟩ ?_
    show HashUntil reg.db (connKey cfg.environment c) ((reg.writers p).horizon cfg reg.now)
    rw [hh, hdb]
    exact hashUntil_legal hhs hl hat hst (now_le_horizon _ _) hle
end

omit [DecidableEq ρ] in
theorem Tracked.writer {a : Registry.Act π} (h : Tracked cfg p c σ) (hs : Sound cfg σ) (hsy : Stays reg p c)
    (hb : Beats cfg p σ.reg a) (he : Registry.Effect cfg σ.reg a reg) : Tracked cfg p c { σ with reg := reg } := by
  have hst : Stays σ.reg p c := hsy.before he.grows
  have hok := hs.inv.writers p
  have hle := @horizon_le π cfg _ _ hok.lastBeat
  refine ⟨fun hgt => ?_, fun job cmds hp hj hcon => ?_⟩
  · obtain ⟨hg, hno, hot⟩ := unowned_effect hs.inv he hsy hgt fun hgt => (h.unowned hgt).2
    have hu := (h.unowned hg).1
    exact ⟨hu.of_db (hot hu.db), hno⟩
  -- a connection of the batch has come in, and at this pod
  have hat : (∃ ev ∈ (σ.reg.writers p).batch, ev.connects c) → At σ.reg p c := by
    rintro ⟨ev, hev, hk, rfl⟩
    obtain ⟨⟨pod, info⟩, ho⟩ := ne_none_iff_exists'.1 (hs.batch p ev hev hk)
    have hpd : pod = p := hst.1 _ ho
    exact ⟨info, hpd ▸ ho⟩
  dsimp only at hp hcon
  cases seen_of_effect hs.inv he p with
  | tick ha hn heq =>
    subst ha heq
    obtain ⟨ht, hal⟩ := hb
    rw [Writer.cmds, hp] at hal
    refine (h.flushing job cmds hp hj hcon).frame id (fun hh hm => ?_) fun hh => hh.mono (horizon_tick ht)
    exact hh.of_alive (hal _ (mem_renewed hm))
  | quiet hph hbt _ hbe hdb hn =>
    rw [hph] at hp
    rw [hbt] at hcon
    refine (h.flushing job cmds hp hj hcon).frame ?_ ?_ ?_
    · rw [hdb]
      exact id
    · rw [hdb, hn]
      exact fun hh _ => hh
    · rw [hdb, hn, Writer.horizon, Writer.horizon, hbe]
      exact id
  | own hl hdb hn =>
    have hcn : (reg.writers p).cancelled ≠ true := fun hc => hsy.2 (.inr hc)
    have hi : reg.writers p = σ.reg.writers p → Introduced cfg p c { σ with reg := reg } cmds := by
      intro hw
      rw [hw] at hp hcon
      refine (h.flushing job cmds hp hj hcon).frame ?_ ?_ ?_
      · rw [hdb]
        exact id
      · rw [hdb, hn]
        exact fun hh _ => hh
      · rw [hdb, hn, hw]
        exact id
    generalize hw : reg.writers p = w' at hl hp hcon hcn
    cases hl with
    | flush hr _ =>
      obtain ⟨rfl, rfl, -⟩ := Phase.pipeline.inj hp
      -- the `connect` has waited up to now, so that the connection is not owned yet
      have hpn : Assoc.get (σ.reg.writers p).owned c = none := by
        obtain ⟨ev, hm, hco⟩ := hcon
        refine hs.pending p c ⟨ev, ?_, hco⟩
        rw [Writer.pending, hr]
        exact mem_append_left _ hm
      have hu := (h.unowned hpn).1
      exact .ahead (hu.of_db (hdb ▸ hu.db)) (hashFirst_flushBatch hcon)
    | idle => exact hi hw
    | cancel => exact absurd rfl hcn
    | receive hr _ => simp [hr] at hp
    | heartbeat _ _ | drainFlush _ | sweep _ _ =>
      obtain ⟨rfl, -, -⟩ := Phase.pipeline.inj hp
      simp at hj
    | beat _ _ | restart _ | drain _ _ | drainEmpty _ | sweepEmpty _ _ => cases hp
    | shutdown _ hc => exact absurd hc hcn
  | other hne hl hw hdb hn =>
    rw [hw] at hp hcon
    refine (h.flushing job cmds hp hj hcon).frame ?_ ?_ ?_
    · rw [hdb]
      exact fun hot => hot.exec (hst.ne_sadd hne hl)
    · rw [hdb, hn]
      exact fun hh _ => hashUntil_legal hh hl (hat hcon) hst.2 (Int.le_refl _) (Int.le_trans (now_le_horizon _ _) hle)
    · rw [hdb, hn, hw]
      exact fun hh => hashUntil_legal hh hl (hat hcon) hst.2 (now_le_horizon _ _) hle
  | @exec outcome job' cmd cmds' failed hph hw hdb hn =>
    rw [hw] at hp hcon
    obtain ⟨rfl, rfl, hf⟩ := Phase.pipeline.inj hp
    obtain ⟨rfl, rfl⟩ : failed = false ∧ outcome = .ok := by simpa using hf
    rw [if_neg (by decide)] at hdb
    have hlg : Legal cfg σ.reg p cmd := hok.legal cmd (by simp [Writer.cmds, hph])
    exact (h.flushing _ _ hph hj hcon).exec hs hlg (hat hcon) hst.2 hdb hn (by rw [hw])
  | finish _ hw _ _ =>
    rw [hw] at hp
    exact absurd hp (finish_phase_ne _ _ _ _ _)
  | stop hw _ =>
    rw [hw] at hp
    cases hp

theorem unseen_moves {a : Act π ρ} (hs : Sound cfg σ) (h : σ.reg.opened c = none → Unseen σ c)
    (hm : Moves cfg parseTime σ a σ') (hnw : σ'.reg.opened c = none) : Unseen σ' c := by
  have hn : σ.reg.opened c = none := by
    cases ho : σ.reg.opened c with
    | none => rfl
    | some conn => exact absurd (hm.grows.opened c conn ho) (by simp [hnw])
  have hu := h hn
  cases hm with
  | writer he =>
    refine hu.of_db ?_
    cases he with
    | @exec q outcome job cmd cmds failed hp =>
      dsimp only
      split
      · exact hu.db
      refine hu.db.exec fun key heq => ?_
      have hl : Legal cfg σ.reg q cmd := (hs.inv.writers q).legal cmd (by simp [Writer.cmds, hp])
      rw [heq] at hl
      cases hl with
      | sadd hat _ =>
        obtain ⟨info, ho⟩ := hat
        rw [hn] at ho
        cases ho
    | tick _ | connect _ | disconnect _ _ | subscribe _ _ | writer _ | finish _ | stop _ _ => exact hu.db
  | call hm => exact hu.call hm
  | lost => exact hu.erase hu.db _
  | srem _ => exact hu.erase (hu.db.exec (by simp)) _

theorem unseen_run {now : Time} {as : List (Act π ρ)} (h : run (step cfg parseTime) (init now) as = some σ)
    (hn : σ.reg.opened c = none) : Unseen σ c := by
  have ha : Sound cfg σ ∧ (σ.reg.opened c = none → Unseen σ c) := by
    refine run_invariant (fun σ => Sound cfg σ ∧ (σ.reg.opened c = none → Unseen σ c)) ?_ ⟨sound_init now, fun _ => ?_⟩ h
    · rintro σ a σ' ⟨hs, hu⟩ hst
      have hm := moves_of_step hst
      exact ⟨hs.moves hm, unseen_moves hs hu hm⟩
    · exact ⟨fun key members expires hdb => (by cases hdb), fun r => id, fun e he => (by cases he)⟩
  exact ha.2 hn

omit [DecidableEq π] [DecidableEq ρ] in
theorem tracked_of_new (hs : Sound cfg σ) (hu : Unseen σ c) (hn : σ.reg.opened c = none) : Tracked cfg p c σ := by
  refine ⟨fun _ => ⟨hu, fun key hm => ?_⟩, fun job cmds _ _ hc => ?_⟩
  · cases (hs.inv.writers p).legal _ hm with
    | sadd hat _ =>
      obtain ⟨info, ho⟩ := hat
      rw [hn] at ho
      cases ho
  · obtain ⟨ev, hev, hk, rfl⟩ := hc
    exact absurd hn (hs.batch p ev hev hk)

def Arriving (cfg : RegistryConfig π) (p : π) (c : GoStr) (σ : State π ρ) : Prop :=
  Stays σ.reg p c → Tracked cfg p c σ ∧ Registering cfg p c σ.reg

theorem Arriving.moves {a : Act π ρ} (h : Arriving cfg p c σ) (hs : Sound cfg σ) (hok : Answered cfg p c σ a)
    (hm : Moves cfg parseTime σ a σ') : Arriving cfg p c σ' := by
  intro hst
  obtain ⟨ht, hr⟩ := h (hst.before hm.grows)
  cases hm with
  | writer he => exact ⟨ht.writer hs hst hok he, hr.effect hs.inv (hs.batch p) hok he⟩
  | call hm => exact ⟨ht.call hok hm, hr⟩
  | lost => exact ⟨ht.erase _, hr⟩
  | srem hmm =>
    refine ⟨ht.srem (hs.keys _ hmm), registering_srem hr (hs.keys _ hmm) ?_⟩
    intro info job cmds _ _ hp hj hc
    exact (ht.flushing job cmds hp hj hc).spared.lazy _ hmm

end Tracked

/-! ## From the flush on -/

/-- The query reads an index of the connection. -/
def Query.About (q : Query) (info : ConnOwnership) : Prop :=
  q.tenantID = info.tenantID ∧ (q.filters.apiKeyID = [] ∨ q.filters.apiKeyID = info.apiKeyID)

def Call.Shows (c : GoStr) (info : ConnOwnership) : Call → Prop
  | .idle | .started _ | .done _ none => True
  | .hashes q left valid _ => q.About info → c ∈ left ∨ c ∈ valid.map (·.1)
  | .health q valid _ _ => q.About info → c ∈ valid.map (·.1)
  | .done q (some result) => q.About info → ∃ all, result = q.filters.page all ∧
      (q.filters.transport = [] → q.filters.channel = [] → c ∈ all.map (·.connectionID))

section Kept
variable {σ σ' : State π ρ} {p : π} {c : GoStr} {info : ConnOwnership} {s : Registry.State π}

section
omit [DecidableEq π] [DecidableEq ρ]

theorem mem_idxKey {q : Query} (h : Listed cfg s c info) (hq : q.About info) :
    c ∈ s.db.smembers s.now (q.idxKey cfg.environment) := by
  obtain ⟨-, htn, ha⟩ := h
  obtain ⟨ht, hk⟩ := hq
  unfold Query.idxKey
  split
  · rename_i hne
    have hky := hk.resolve_left hne
    rw [ht, hky]
    exact ha (hky ▸ hne)
  · rw [ht]
    exact htn

theorem Call.Shows.move {call call' : Call} {a : CallAct} {spawned : List (GoStr × List GoStr)}
    (h : call.Shows c info) (hm : CallMove cfg parseTime s.db s.now call a call' spawned) (hl : Listed cfg s c info)
    (hh : HashUntil s.db (connKey cfg.environment c) s.now) (hok : a = .hgetall false → call.next ≠ some c) :
    call'.Shows c info := by
  cases hm with
  | start _ | error _ => trivial
  | empty q hn =>
    intro hq
    have hmm := mem_idxKey hl hq
    rw [hn] at hmm
    cases hmm
  | members hp => exact fun hq => .inl (hp.symm.subset (mem_idxKey hl hq))
  | stale hs =>
    have hne := ne_of_stale hh (fun hf heq => hok (by rw [hf]) (congrArg some heq)) hs
    intro hq
    refine (h hq).imp_left fun hmm => ?_
    exact (mem_cons.1 hmm).resolve_left fun heq => hne heq.symm
  | valid =>
    intro hq
    rcases h hq with hmm | hmm
    · rcases mem_cons.1 hmm with rfl | hmm
      · exact .inr (by simp)
      · exact .inl hmm
    · exact .inr (by simpa using .inl (by simpa using hmm))
  | collect => exact fun hq => (h hq).resolve_left not_mem_nil
  | health => exact h
  | finish => exact fun hq => ⟨_, rfl, fun ht hc => mem_matched ht hc (h hq)⟩
end

structure Kept (cfg : RegistryConfig π) (p : π) (c : GoStr) (info : ConnOwnership) (later : ρ → Prop) (σ : State π ρ) :
    Prop where
  registered : Registered cfg p c info σ.reg
  spared : Spared σ c
  shows : ∀ r, later r → (σ.calls r).Shows c info

omit [DecidableEq π] [DecidableEq ρ] in
theorem hash_of_registered (h : Registered cfg p c info s) :
    HashUntil s.db (connKey cfg.environment c) s.now :=
  HashUntil.mono (h.marks .conn (by simp [Mark.Applies])) (now_le_horizon _ _)

theorem Kept.moves {a : Act π ρ} (h : Kept cfg p c info later σ) (hs : Sound cfg σ) (ho : σ.reg.opened c = some ⟨p, info⟩)
    (hok : Answered cfg p c σ a) (hm : Moves cfg parseTime σ a σ') (hst : ¬Leaving σ'.reg p c) :
    Kept cfg p c info later σ' := by
  cases hm with
  | writer he => exact ⟨h.registered.effect hs.inv ho hok he hst, ⟨h.spared.calls, h.spared.lazy⟩, h.shows⟩
  | @call r' a call' spawned hm =>
    have hn : a = .hgetall false → (σ.calls r').next ≠ some c := by
      rintro rfl
      exact hok
    have hh := hash_of_registered h.registered
    refine ⟨h.registered, h.spared.call hm hh hn, fun r hl => ?_⟩
    show (Function.update σ.calls r' call' r).Shows c info
    rcases eq_or_ne r r' with rfl | hne
    · rw [update_self]
      exact (h.shows r hl).move hm h.registered.listed hh hn
    · rw [update_of_ne hne]
      exact h.shows r hl
  | lost => exact ⟨h.registered, h.spared.erase _, h.shows⟩
  | srem hmm =>
    exact ⟨registered_srem h.registered (hs.keys _ hmm) (h.spared.lazy _ hmm), h.spared.erase _, h.shows⟩

end Kept

/-! ## Whole runs -/

section Runs
variable {now : Time} {as bs : List (Act π ρ)} {σ τ : State π ρ} {p : π} {c : GoStr} {info : ConnOwnership}

theorem arriving_run (h₀ : run (step cfg parseTime) (init now) as = some σ) (hn : σ.reg.opened c = none)
    (hok : Along (step cfg parseTime) (Answered cfg p c) σ bs) (h : run (step cfg parseTime) σ bs = some τ) :
    Arriving cfg p c τ := by
  have hs := sound_run h₀
  have hal : Sound cfg τ ∧ Arriving cfg p c τ := by
    refine run_invariant_along (fun σ => Sound cfg σ ∧ Arriving cfg p c σ) ?_
      ⟨hs, fun _ => ⟨tracked_of_new hs (unseen_run h₀ hn) hn, fun info job cmds ho => ?_⟩⟩ hok h
    · rintro σ a σ' ⟨hs, ha⟩ hok hst
      have hm := moves_of_step hst
      exact ⟨hs.moves hm, ha.moves hs hok hm⟩
    · rw [hn] at ho
      cases ho
  exact hal.2

omit [DecidableEq π] [DecidableEq ρ] in
theorem Arriving.kept (h : Arriving cfg p c σ) (ho : σ.reg.opened c = some ⟨p, info⟩) (hs : ¬Leaving σ.reg p c)
    (hf : Flushed σ.reg p c) (hl : ∀ r, later r → (σ.calls r).Shows c info) : Kept cfg p c info later σ := by
  obtain ⟨ht, hr⟩ := h ⟨fun conn hc => by rw [ho] at hc; cases hc; rfl, hs⟩
  refine ⟨hr.registered ho hs hf, ?_, hl⟩
  obtain ⟨hp | hp, hcn⟩ := hf
  · exact (ht.flushing _ _ hp (.inl rfl) hcn).spared
  · exact (ht.flushing _ _ hp (.inr rfl) hcn).spared

theorem kept_run (hs : Sound cfg σ) (h : Kept cfg p c info later σ) (ho : σ.reg.opened c = some ⟨p, info⟩)
    (hok : Along (step cfg parseTime) (Answered cfg p c) σ bs) (hr : run (step cfg parseTime) σ bs = some τ)
    (hst : ¬Leaving τ.reg p c) : Kept cfg p c info later τ := by
  have ha : Sound cfg τ ∧ τ.reg.opened c = some ⟨p, info⟩ ∧ (¬Leaving τ.reg p c → Kept cfg p c info later τ) := by
    refine run_invariant_along (fun σ => Sound cfg σ ∧ σ.reg.opened c = some ⟨p, info⟩ ∧
      (¬Leaving σ.reg p c → Kept cfg p c info later σ)) ?_ ⟨hs, ho, fun _ => h⟩ hok hr
    rintro σ a σ' ⟨hs, ho, h⟩ hok hsp
    have hm := moves_of_step hsp
    refine ⟨hs.moves hm, hm.grows.opened _ _ ho, fun hst => ?_⟩
    exact (h fun hl => hst (hl.mono hm.grows)).moves hs ho hok hm hst
  exact ha.2.2 hst

theorem leaving_run (h : run (step cfg parseTime) σ bs = some τ) (hl : Leaving σ.reg p c) : Leaving τ.reg p c :=
  run_invariant (fun σ => Leaving σ.reg p c) (fun _ _ _ hl hs => hl.mono (moves_of_step hs).grows) hl h

end Runs

/-- **Reads keep live connections** whose `connect` was flushed, whose pod heartbeats and of which no `HGETALL` fails: every
listing that reads an index of theirs afterwards has them. -/
theorem reads_keep_live_connections {now : Time} {as₀ as₁ bs : List (Act π ρ)} {σ₀ σ τ : State π ρ} {p : π} {c : GoStr}
    {info : ConnOwnership} (h₀ : run (step cfg parseTime) (init now) as₀ = some σ₀) (hnew : σ₀.reg.opened c = none)
    (h₁ : run (step cfg parseTime) σ₀ as₁ = some σ) (hopen : σ.reg.opened c = some ⟨p, info⟩) (hf : Flushed σ.reg p c)
    (h₂ : run (step cfg parseTime) σ bs = some τ) (hok : Along (step cfg parseTime) (Answered cfg p c) σ₀ (as₁ ++ bs))
    (hstay : ¬Leaving τ.reg p c) :
    Listed cfg τ.reg c info ∧ (∀ e ∈ τ.lazy, c ∉ e.2) ∧
    ∀ r q result, (σ.calls r = .idle ∨ ∃ q, σ.calls r = .started q) → τ.calls r = .done q (some result) → q.About info →
      ∃ all, result = q.filters.page all ∧
        (q.filters.transport = [] → q.filters.channel = [] → c ∈ all.map (·.connectionID)) := by
  obtain ⟨hok₁, hok₂⟩ := along_append.1 hok
  have hs : Sound cfg σ := by
    refine run_invariant (Sound cfg) (fun _ _ _ hs hstep => hs.moves (moves_of_step hstep)) (sound_run h₀) h₁
  have hkept : Kept cfg p c info (fun r => σ.calls r = .idle ∨ ∃ q, σ.calls r = .started q) σ := by
    refine (arriving_run h₀ hnew hok₁ h₁).kept hopen (fun hl => hstay (leaving_run h₂ hl)) hf ?_
    rintro r (hidle | ⟨q, hstarted⟩)
    · rw [hidle]
      trivial
    · rw [hstarted]
      trivial
  obtain ⟨hreg, hspared, hshows⟩ := kept_run hs hkept hopen (hok₂ σ h₁) h₂ hstay
  refine ⟨hreg.listed, hspared.lazy, fun r q result hlater hdone hq => ?_⟩
  have hshow := hshows r hlater
  rw [hdone] at hshow
  exact hshow hq

def demoStep : State Unit Bool → Act Unit Bool → Option (State Unit Bool) := step (demoConfig 4) fun _ => none
def demoQuery : Query := ⟨str "t", {}⟩

def demoListing (r : Bool) (ok : Bool) : List (Act Unit Bool) :=
  [.call r (.start demoQuery), .call r (.smembers (some [str "b"])), .call r (.hgetall ok),
    .call r (.collect (if ok then [str "p"] else []))] ++ (if ok then [.call r (.health true)] else []) ++ [.call r .finish]

def demoEmpty (r : Bool) : List (Act Unit Bool) := [.call r (.start demoQuery), .call r (.smembers (some []))]

theorem reads_keep_live_connections_demo : ∃ σ τ : State Unit Bool,
    run demoStep (init 0) (demoEmpty false ++ (demoFlush (str "b")).map .writer) = some σ ∧
    run demoStep σ ((demoBeat (str "b")).map .writer ++ demoListing true true) = some τ ∧
    Listed (demoConfig 4) τ.reg (str "b") ⟨str "t", []⟩ ∧
    ∃ result, τ.calls true = .done demoQuery (some result) ∧ result.2 = 1 ∧
      ∃ all, result = demoQuery.filters.page all ∧ str "b" ∈ all.map (·.connectionID) := by
  have hval : ((run demoStep (init 0) (demoEmpty false)).bind fun σ₀ =>
      (run demoStep σ₀ ((demoFlush (str "b")).map .writer)).bind fun σ =>
      (run demoStep σ ((demoBeat (str "b")).map .writer ++ demoListing true true)).map fun τ =>
        (decide ((σ₀.reg.opened (str "b")).isNone ∧ Along demoStep (Answered (demoConfig 4) () (str "b")) σ₀
            ((demoFlush (str "b")).map .writer ++ ((demoBeat (str "b")).map .writer ++ demoListing true true))),
          (σ.reg.opened (str "b")).map Conn.info,
          decide (Flushed σ.reg () (str "b") ∧ σ.calls true = .idle ∧ ¬Leaving τ.reg () (str "b")),
          match τ.calls true with
          | .done q result => decide (q = demoQuery ∧ result.map Prod.snd = some 1)
          | _ => false)) = some (true, some ⟨str "t", []⟩, true, true) := by decide +kernel
  obtain ⟨σ₀, h₀, hval⟩ := bind_eq_some_iff.1 hval
  obtain ⟨σ, h₁, hval⟩ := bind_eq_some_iff.1 hval
  obtain ⟨τ, h₂, hval⟩ := map_eq_some_iff.1 hval
  simp only [Prod.mk.injEq, decide_eq_true_eq] at hval
  obtain ⟨⟨hnew, hok⟩, hinfo, ⟨hflushed, hidle, hstay⟩, hdone⟩ := hval
  obtain ⟨conn, hconn, hinfo⟩ := map_eq_some_iff.1 hinfo
  obtain ⟨result, hcall, htotal⟩ : ∃ result, τ.calls true = .done demoQuery (some result) ∧ result.2 = 1 := by
    split at hdone
    · rename_i q answer hcall
      obtain ⟨rfl, hsome⟩ := of_decide_eq_true hdone
      obtain ⟨result, rfl, htotal⟩ := map_eq_some_iff.1 hsome
      exact ⟨result, hcall, htotal⟩
    · cases hdone
  have hopen : σ.reg.opened (str "b") = some ⟨(), ⟨str "t", []⟩⟩ := by rw [hconn, ← hinfo]
  obtain ⟨hlisted, -, hlater⟩ := reads_keep_live_connections h₀ (isNone_iff_eq_none.1 hnew) h₁ hopen hflushed h₂ hok hstay
  obtain ⟨all, hpage, hmem⟩ := hlater true demoQuery result (.inl hidle) hcall ⟨rfl, .inl rfl⟩
  refine ⟨σ, τ, ?_, h₂, hlisted, result, hcall, htotal, all, hpage, hmem rfl rfl⟩
  rw [run_append, h₀]
  exact h₁

/-- **No stray entry**: whatever fails, what no pod opened is in no set, hash or removal; an expiry is at most a `ttl` away. -/
theorem unopened_absent {now : Time} {as : List (Act π ρ)} (h : run (step cfg parseTime) (init now) as = some σ) :
    (σ.reg.opened c = none → Unseen σ c) ∧ ∀ e ∈ σ.reg.db (connKey cfg.environment c),
      σ.reg.opened c ≠ none ∧ ∀ d ∈ e.expires, d ≤ σ.reg.now + cfg.ttlSecs * second := by
  have hi := (sound_run h).inv
  refine ⟨unseen_run h, fun e he => ⟨?_, hi.bounded c e he⟩⟩
  obtain ⟨p, info, ho⟩ := hi.stored c (by simp_all)
  simp [ho]

theorem unopened_absent_flushed : ∃ σ : State Unit Bool,
    run demoStep (init 0) ((demoFlush (str "b")).map .writer ++ demoListing true true) = some σ ∧
    (σ.reg.opened (str "b")).isSome = true ∧ Unseen σ (str "a") := by
  have hr : run demoStep (init 0) ((demoFlush (str "b")).map .writer ++ demoListing true true) = some _ := rfl
  exact ⟨_, hr, rfl, (unopened_absent hr).1 rfl⟩

def demoFailure : List (Act Unit Bool) :=
  demoListing false false ++ [.srem (tenantIdxKey (str "dev") (str "t"), [str "b"]) .ok] ++
    (demoBeat (str "b")).map .writer ++ demoEmpty true

/-- The first of the two conditions alone: the pod heartbeats. -/
def PodBeats (σ : State Unit Bool) : Act Unit Bool → Prop
  | .writer a => Beats (demoConfig 4) () σ.reg a
  | _ => True

instance (σ : State Unit Bool) (a : Act Unit Bool) : Decidable (PodBeats σ a) :=
  match a with
  | .writer a => inferInstanceAs (Decidable (Beats (demoConfig 4) () σ.reg a))
  | .call _ _ | .srem _ _ => isTrue trivial

/-- **Bug**: a failed `HGETALL` is taken for an expired hash (`connections_valkey.go:142`); the connection is removed from the
index for good. -/
theorem failed_read_unlists : ∃ σ τ : State Unit Bool,
    run demoStep (init 0) ((demoFlush (str "b")).map .writer) = some σ ∧ run demoStep σ demoFailure = some τ ∧
    Flushed σ.reg () (str "b") ∧ Along demoStep PodBeats σ demoFailure ∧ ¬Leaving τ.reg () (str "b") ∧
    τ.reg.db.hgetall τ.reg.now (connKey (str "dev") (str "b")) ≠ [] ∧
    str "b" ∉ τ.reg.db.smembers τ.reg.now (tenantIdxKey (str "dev") (str "t")) ∧
    τ.calls true = .done demoQuery (some ([], 0)) :=
  exists_two_runs (by decide +kernel)

end Sukko.ConnectionListing
