import Sukko.Server.RegistryRuns
/-
# Connections that have disconnected

Once the writer is done with a `disconnect` (`Released`), nothing touches the hash (`released_run`). `Attended` excludes a
dropped `disconnect`, and a hash left without a time to live whose `DEL` is lost.
-/

namespace Sukko.Registry
open Keyspace Steps List Function
variable {π : Type} {cfg : RegistryConfig π} {ev : RegistryEvent} {owned : Owned} {db : Db GoStr} {a : Act π}

/-! ## Done with a connection -/

def Released (cfg : RegistryConfig π) (c : GoStr) (w : Writer) : Prop :=
  w.phase = .stopped ∨ ((∀ ev ∈ w.pending, ¬ev.connects c ∧ ¬ev.disconnects c) ∧
    (∀ cmd ∈ w.cmds, cmd.key ≠ connKey cfg.environment c) ∧ Assoc.get w.owned c = none)

variable {as : List (Act π)} {batch rest : List RegistryEvent} {c : GoStr} {cmd : Cmd GoStr} {job : Job} {now : Time}
  {p q : π} {s s' t : State π} {w w' : Writer}

theorem Released.push (h : Released cfg c w) (hev : ¬ev.connects c ∧ ¬ev.disconnects c) : Released cfg c (w.push cfg ev) := by
  unfold Released at h ⊢
  rw [push_phase, push_cmds, push_owned]
  refine h.imp_right fun ⟨hes, hr⟩ => ⟨?_, hr⟩
  rw [push_pending]
  split
  · exact forall_mem_append.2 ⟨hes, forall_mem_singleton.2 hev⟩
  · exact hes

theorem Released.of_idle (hc : w.cmds = []) (he : ∀ ev ∈ w.pending, ¬ev.connects c ∧ ¬ev.disconnects c)
    (ho : Assoc.get w.owned c = none) : Released cfg c w :=
  .inr ⟨he, by simp [hc], ho⟩

theorem Released.flush (he : ∀ ev ∈ batch ++ w.workChan, ¬ev.connects c ∧ ¬ev.disconnects c)
    (ho : Assoc.get w.owned c = none) : Released cfg c (w.flush cfg job batch) := by
  obtain ⟨hg, hc⟩ := @flushBatch_untouched π cfg batch c w.owned ho fun ev hev =>
    (he ev (mem_append_left _ hev)).1
  refine .inr ⟨fun ev hev => he ev (mem_append_right _ hev), fun cmd hcm hk => ?_, hg⟩
  obtain ⟨-, ev, hev, hd⟩ := hc cmd hcm hk
  exact (he ev (mem_append_left _ hev)).2 hd

theorem Released.local (h : Released cfg c w) (hb : w.phase.collects = false → w.batch = []) (hl : Local cfg p now w w') :
    Released cfg c w' := by
  rcases h with hs | ⟨hevs, hc, ho⟩
  · -- a writer that has stopped does nothing
    cases hl with
    | idle | cancel => exact .inl hs
    | flush hp _ | receive hp _ | beat hp _ | heartbeat hp _ | restart hp | shutdown hp _
    | drain hp _ | drainEmpty hp | drainFlush hp | sweep hp _ | sweepEmpty hp _ =>
      rw [hs] at hp
      cases hp
  have hn : ∀ e ∈ w.owned, e.1 ≠ c := fun e he heq =>
    Assoc.get_ne_none_iff.2 ⟨e.2, heq ▸ he⟩ ho
  have hes : ∀ ev ∈ w'.pending, ¬ev.connects c ∧ ¬ev.disconnects c := fun ev hev =>
    hevs ev ((hl.pending_sublist hb).subset hev)
  cases hl with
  | flush hp _ | drainFlush hp =>
    rw [Writer.pending, hp] at hevs
    exact .flush hevs ho
  | idle | cancel => exact .inr ⟨hevs, hc, ho⟩
  | heartbeat hp hpr =>
    refine .inr ⟨hes, fun cmd hcm hk => ?_, ho⟩
    rcases mem_heartbeatCmds hcm with ⟨e, he, rfl⟩ | ⟨key, hno, rfl⟩ | ⟨fields, rfl⟩
    · exact hn e (hpr.subset he) (connKey_inj.1 hk)
    · exact hno c hk.symm
    · exact noConn_healthKey _ c hk.symm
  | sweep hp hpr =>
    refine .inr ⟨hes, fun cmd hcm hk => ?_, ho⟩
    obtain ⟨c', info, hm, hcm⟩ := mem_sweepCmds.1 hcm
    rcases mem_removeCmds hcm with rfl | ⟨key, hno, rfl⟩
    · exact hn _ (hpr.subset hm) (connKey_inj.1 hk)
    · exact hno c hk.symm
  | receive hp _ => exact .of_idle (by simp [Writer.cmds, hp]) hes ho
  | shutdown _ _ => exact .of_idle (by by_cases hd : 0 < cfg.drainTimeout <;> simp [Writer.cmds, hd]) hes ho
  | beat _ _ | restart _ | drain _ _ | drainEmpty _ | sweepEmpty _ _ => exact .of_idle rfl hes ho

theorem Released.finish {failed : Bool} (h : Released cfg c w) (hb : w.phase.collects = false → w.batch = [])
    (hp : w.phase = .pipeline job [] failed) : Released cfg c (w.finish job failed) := by
  rcases h with hs | ⟨he, -, ho⟩
  · rw [hs] at hp
    cases hp
  · exact .of_idle (finish_cmds w job failed) (finish_pending hp hb ▸ he) (finish_owned ho)

theorem Inv.key_ne (h : Inv cfg s) (hat : At s p c) (hne : q ≠ p) (hc : cmd ∈ (s.writers q).cmds) :
    cmd.key ≠ connKey cfg.environment c := fun hk =>
  hne (((h.writers q).legal cmd hc).at_of_key hk |>.unique hat)

theorem Released.effect [DecidableEq π] (hi : Inv cfg s) (hat : At s p c) (hcl : s.closed c = true)
    (h : Released cfg c (s.writers p)) (he : Effect cfg s a s') :
    Released cfg c (s'.writers p) ∧ s'.db (connKey cfg.environment c) = s.db (connKey cfg.environment c) := by
  -- a step of the writer of one pod, with what it leaves of that writer
  have hset : ∀ {q : π} {w : Writer}, (q = p → Released cfg c w) → Released cfg c (Function.update s.writers q w p) := by
    intro q w hw
    rcases eq_or_ne p q with rfl | hne
    · rw [update_self]
      exact hw rfl
    · rw [update_of_ne hne]
      exact h
  cases he with
  | tick _ => exact ⟨h, rfl⟩
  | @connect q ev hn =>
    refine ⟨hset ?_, rfl⟩
    rintro rfl
    refine h.push ⟨fun hco => ?_, fun hds => by cases hds.1⟩
    obtain ⟨info, ho⟩ := hat
    have hid : ev.connID = c := hco.2
    rw [← hid, hn] at ho
    cases ho
  | disconnect ho hf =>
    refine ⟨hset ?_, rfl⟩
    intro hq
    rw [hq]
    refine h.push ⟨fun hco => (by cases hco.1), fun hds => ?_⟩
    have hid : _ = c := hds.2
    rw [← hid] at hcl
    exact Bool.noConfusion (hf.symm.trans hcl)
  | subscribe hco hds =>
    refine ⟨hset ?_, rfl⟩
    rintro rfl
    exact h.push ⟨fun hc => hco hc.1, fun hd => hds hd.1⟩
  | writer hw =>
    refine ⟨hset ?_, rfl⟩
    rintro rfl
    exact h.local (hi.writers _).batch hw
  | finish hp =>
    refine ⟨hset ?_, rfl⟩
    rintro rfl
    exact h.finish (hi.writers _).batch hp
  | stop hp hcn =>
    refine ⟨hset ?_, rfl⟩
    intro _
    exact .inl rfl
  | @exec q outcome job cmd cmds failed hp =>
    have hm : cmd ∈ (s.writers q).cmds := by simp [Writer.cmds, hp]
    have hk : cmd.key ≠ connKey cfg.environment c := by
      rcases eq_or_ne q p with rfl | hne
      · rcases h with hs | ⟨-, hcm, -⟩
        · rw [hs] at hp
          cases hp
        · exact hcm cmd hm
      · exact hi.key_ne hat hne hm
    refine ⟨hset ?_, ?_⟩
    · rintro rfl
      rcases h with hs | ⟨hev, hcm, how⟩
      · rw [hs] at hp
        cases hp
      · refine .inr ⟨by simpa [Writer.pending, hp] using hev, fun cmd' hcd => hcm cmd' ?_, how⟩
        rw [Writer.cmds, hp]
        exact mem_cons_of_mem _ hcd
    · dsimp only
      split
      · rfl
      · exact exec_of_ne hk

/-- **Nothing touches the hash of a connection that its writer is done with.** -/
theorem released_run [DecidableEq π] (hi : Inv cfg s) (hat : At s p c) (hc : s.closed c = true)
    (h : Released cfg c (s.writers p)) (hr : run (step cfg) s as = some t) :
    t.db (connKey cfg.environment c) = s.db (connKey cfg.environment c) := by
  have ha : Inv cfg t ∧ At t p c ∧ t.closed c = true ∧ Released cfg c (t.writers p) ∧
      t.db (connKey cfg.environment c) = s.db (connKey cfg.environment c) := by
    refine run_invariant (fun t => Inv cfg t ∧ At t p c ∧ t.closed c = true ∧ Released cfg c (t.writers p) ∧
      t.db (connKey cfg.environment c) = s.db (connKey cfg.environment c)) ?_ ⟨hi, hat, hc, h, rfl⟩ hr
    rintro t a u ⟨hi, hat, hc, h, hdb⟩ hs
    have he := effect_of_step hs
    obtain ⟨h', hd⟩ := h.effect hi hat hc he
    exact ⟨hi.effect he, hat.mono he.grows, he.grows.closed c hc, h', hd.trans hdb⟩
  exact ha.2.2.2.2

/-! ## Coming to that point -/

def Phase.failed : Phase → Bool
  | .pipeline .flush [] true | .pipeline .flushBeforeHeartbeat [] true | .pipeline (.heartbeat _) [] true => true
  | _ => false

def NoneLasting (cfg : RegistryConfig π) (s : State π) (p : π) : Prop :=
  ∀ e ∈ (s.writers p).owned, ¬Lasting s.db (connKey cfg.environment e.1)

/-- No `disconnect` is dropped, except by a writer that has stopped; no `DEL` of a hash without a time to live is lost; no writer
is cancelled while it owns such a hash. -/
def Attended (cfg : RegistryConfig π) (s : State π) : Act π → Prop
  | .disconnect connID => ∀ conn ∈ s.opened connID,
      (s.writers conn.pod).workChan.length < cfg.buffer ∨ (s.writers conn.pod).phase = .stopped
  | .exec p .lost => ∀ cmd ∈ (s.writers p).cmds.head?, cmd = .del cmd.key → ¬Lasting s.db cmd.key
  | .finish p => (s.writers p).phase.failed = true → (s.writers p).cancelled = true → NoneLasting cfg s p
  | .stop p => NoneLasting cfg s p
  | _ => True

instance (s : State π) (p : π) : Decidable (NoneLasting cfg s p) := inferInstanceAs (Decidable (∀ e ∈ _, _))

instance (s : State π) (a : Act π) : Decidable (Attended cfg s a) :=
  match a with
  | .disconnect _ => inferInstanceAs (Decidable (∀ conn ∈ _, _))
  | .exec _ .lost => inferInstanceAs (Decidable (∀ cmd ∈ _, _))
  | .finish _ => inferInstanceAs (Decidable (_ → _ → _))
  | .stop _ => inferInstanceAs (Decidable (NoneLasting cfg s _))
  | .tick _ | .connect _ _ | .subscribe _ _ _ _ _ | .receive _ | .flushTick _ | .heartbeatTick _ | .heartbeat _ _ _
  | .exec _ .ok | .exec _ .unanswered | .restart _ | .cancel _ | .shutdown _ | .drain _ | .drainTimeout _ | .sweep _ _ =>
    isTrue trivial

def Writer.Awaits (w : Writer) (c : GoStr) : Prop := ∃ ev ∈ w.pending, ev.disconnects c

structure WriterKept (cfg : RegistryConfig π) (s : State π) (p : π) (w : Writer) : Prop where
  owned : w.phase.stopping = false → ∀ c, s.closed c = true → Assoc.get w.owned c ≠ none → w.Awaits c
  connect : w.phase ≠ .stopped → ∀ c, s.closed c = true → (∃ ev ∈ w.pending, ev.connects c) → w.Awaits c
  lasting : ∀ c, At s p c → Lasting s.db (connKey cfg.environment c) →
    .del (connKey cfg.environment c) ∈ w.cmds ∨ Assoc.get w.kept c ≠ none

attribute [local simp] Writer.pending Writer.cmds Writer.kept Phase.done Phase.stopping

theorem awaits_of_behind (hev : EventsOk s p (batch ++ rest)) (hcn : ∃ ev ∈ rest, ev.connects c)
    (hds : ∃ ev ∈ batch ++ rest, ev.disconnects c) : ∃ ev ∈ rest, ev.disconnects c := by
  obtain ⟨e, he, hc⟩ := hcn
  obtain ⟨d, hd, hdc⟩ := hds
  rcases mem_append.1 hd with hd | hd
  · exact absurd hdc ((pairwise_append.1 hev.ordered).2.2 d hd e he c hc).2
  · exact ⟨d, hd, hdc⟩

theorem awaits_of_owned (hev : EventsOk s p (batch ++ rest))
    (hg : Assoc.get (flushBatch cfg owned batch).1 c ≠ none) (hds : ∃ ev ∈ batch ++ rest, ev.disconnects c) :
    ∃ ev ∈ rest, ev.disconnects c := by
  obtain ⟨d, hd, hdc⟩ := hds
  rcases mem_append.1 hd with hd | hd
  · have ho : batch.Pairwise Precedes := (pairwise_append.1 hev.ordered).1
    exact absurd (get_flushBatch_of_disconnect ho ⟨d, hd, hdc⟩) hg
  · exact ⟨d, hd, hdc⟩

theorem owned_or_connect_of_flushBatch (h : Assoc.get (flushBatch cfg owned batch).1 c ≠ none) :
    Assoc.get owned c ≠ none ∨ ∃ ev ∈ batch, ev.connects c := by
  by_cases hg : Assoc.get owned c = none
  · right
    by_contra hn
    exact h (flushBatch_untouched hg fun ev hev hc => hn ⟨ev, hev, hc⟩).1
  · exact .inl hg

theorem WriterKept.flush (hd : (Phase.pipeline job [] false).done = false) (hph : w.phase ≠ .stopped)
    (hev : EventsOk s p w.pending) (hp : w.pending = batch ++ w.workChan) (hcm : w.cmds = []) (hkp : w.kept = w.owned)
    (hst : w.phase.stopping = true → (Phase.pipeline job [] false).stopping = true) (h : WriterKept cfg s p w) :
    WriterKept cfg s p (w.flush cfg job batch) where
  owned := by
    intro hs c hcl hg
    have hs' : w.phase.stopping = false := by
      cases hw : w.phase.stopping with
      | false => rfl
      | true =>
        have := hst hw
        cases job <;> simp_all [Writer.flush, Phase.stopping]
    rw [hp] at hev
    refine awaits_of_owned hev hg ?_
    show ∃ ev ∈ batch ++ w.workChan, ev.disconnects c
    rw [← hp]
    rcases owned_or_connect_of_flushBatch hg with ho | ⟨ev, hm, hcn⟩
    · exact h.owned hs' c hcl ho
    · refine h.connect hph c hcl ⟨ev, ?_, hcn⟩
      rw [hp]
      exact mem_append_left _ hm
  connect := by
    intro _ c hcl hcn
    rw [hp] at hev
    refine awaits_of_behind hev hcn ?_
    obtain ⟨ev, hm, hc⟩ := hcn
    show ∃ ev ∈ batch ++ w.workChan, ev.disconnects c
    rw [← hp]
    refine h.connect hph c hcl ⟨ev, ?_, hc⟩
    rw [hp]
    exact mem_append_right _ hm
  lasting := by
    intro c hat hl
    have ho : Assoc.get w.owned c ≠ none := by
      rcases h.lasting c hat hl with hdl | ho
      · rw [hcm] at hdl
        cases hdl
      · exact hkp ▸ ho
    have hk : (w.flush cfg job batch).kept = (flushBatch cfg w.owned batch).1 := by
      cases job <;> first | rfl | cases hd
    rw [hk]
    exact (owned_or_del_flushBatch ho).symm

section
variable (h : WriterKept cfg s p w)
include h

theorem WriterKept.of_same (hph : w.phase ≠ .stopped) (hp : w'.pending = w.pending)
    (ho : w'.owned = w.owned) (hcm : w.cmds = []) (hk : w.phase.done = false) (hd : w'.phase.done = false)
    (hst : w.phase.stopping = true → w'.phase.stopping = true) : WriterKept cfg s p w' where
  owned := by
    intro hs c hc hg
    have hs' : w.phase.stopping = false := by
      cases hw : w.phase.stopping with
      | false => rfl
      | true => exact absurd (hst hw) (Bool.eq_false_iff.1 hs)
    unfold Writer.Awaits
    rw [hp]
    exact h.owned hs' c hc (ho ▸ hg)
  connect := by
    intro _ c hc hcn
    unfold Writer.Awaits
    rw [hp] at hcn ⊢
    exact h.connect hph c hc hcn
  lasting := by
    intro c hat hl
    rcases h.lasting c hat hl with hdl | hg
    · rw [hcm] at hdl
      cases hdl
    · right
      simp only [Writer.kept, hk, hd, ho] at hg ⊢
      exact hg

theorem WriterKept.local (hok : WriterOk cfg s p w) (hl : Local cfg p s.now w w') : WriterKept cfg s p w' := by
  have hev := hok.events
  cases hl with
  | receive hp hq =>
    refine h.of_same (by simp [hp]) ?_ rfl (by simp [hp]) (by simp [hp]) (by simp [hp]) (by simp [hp])
    simp [hp, hq]
  | flush hp hj =>
    refine h.flush ?_ (by simp [hp]) hev (by simp [hp]) (by simp [hp]) (by simp [hp]) (by simp [hp])
    rcases hj with rfl | rfl <;> rfl
  | idle => exact h
  | beat hp hb =>
    refine h.of_same (by simp [hp]) ?_ rfl (by simp [hp]) (by simp [hp]) rfl (by simp [hp])
    simp [hp, hb]
  | heartbeat hp hpr =>
    exact h.of_same (by simp [hp]) (by simp [hp]) rfl (by simp [hp]) (by simp [hp]) rfl (by simp [hp])
  | restart hp =>
    have hb := hok.batch (by rw [hp]; rfl)
    exact h.of_same (by simp [hp]) (by simp [hp, hb]) rfl (by simp [hp]) (by simp [hp]) rfl (by simp [hp])
  | cancel => exact ⟨h.owned, h.connect, h.lasting⟩
  | shutdown hp hcn =>
    rw [Writer.pending, hp] at hev
    have hpn : { w with batch := [], phase := if 0 < cfg.drainTimeout then Phase.draining [] else .sweeping }.pending =
        w.workChan := by by_cases hd : 0 < cfg.drainTimeout <;> simp [hd]
    refine ⟨fun hs => ?_, fun _ c hcl hco => ?_, fun c hat hls => .inr ?_⟩
    · by_cases hd : 0 < cfg.drainTimeout <;> simp [hd] at hs
    · unfold Writer.Awaits
      rw [hpn] at hco ⊢
      refine awaits_of_behind hev hco ?_
      obtain ⟨ev, hm, hc⟩ := hco
      have haw := h.connect (by simp [hp]) c hcl ⟨ev, by simp [hp, hm], hc⟩
      simpa [Writer.Awaits, hp] using haw
    · rcases h.lasting c hat hls with hdl | hg
      · simp [hp] at hdl
      · simp only [Writer.kept, hp, Phase.done] at hg
        by_cases hd : 0 < cfg.drainTimeout <;> simpa [hd] using hg
  | drain hp hq =>
    refine h.of_same (by simp [hp]) ?_ rfl (by simp [hp]) (by simp [hp]) rfl (fun _ => rfl)
    simp [hp, hq]
  | drainEmpty hp =>
    exact h.of_same (by simp [hp]) (by simp [hp]) rfl (by simp [hp]) (by simp [hp]) rfl (fun _ => rfl)
  | drainFlush hp =>
    exact h.flush rfl (by simp [hp]) hev (by simp [hp]) (by simp [hp]) (by simp [hp]) (fun _ => rfl)
  | sweep hp hpr =>
    refine ⟨fun hs => (by cases hs), fun _ c hcl hco => ?_, fun c hat hls => .inl ?_⟩
    · have haw := h.connect (by simp [hp]) c hcl (by simpa [hp] using hco)
      simpa [Writer.Awaits, hp] using haw
    · -- what is without a time to live is owned, and all that is owned is deleted
      have how : Assoc.get w.owned c ≠ none := by
        rcases h.lasting c hat hls with hdl | hg
        · simp [hp] at hdl
        · simpa [hp] using hg
      obtain ⟨info, hm⟩ := Assoc.get_ne_none_iff.1 how
      exact mem_sweepCmds.2 ⟨c, info, hpr.symm.subset hm, by simp [removeCmds]⟩
  | sweepEmpty hp ho =>
    refine ⟨fun hs => (by cases hs), fun hs => absurd rfl hs, fun c hat hls => ?_⟩
    rcases h.lasting c hat hls with hdl | hg
    · simp [hp] at hdl
    · simp [hp, ho] at hg

theorem WriterKept.push (hdb : s'.db = s.db) (hat : ∀ c, At s' p c → Lasting s.db (connKey cfg.environment c) → At s p c)
    (hcl : ∀ c, s'.closed c = true → s.closed c = true ∨ ((w.push cfg ev).phase ≠ .stopped → (w.push cfg ev).Awaits c))
    (hco : ∀ c, ev.connects c → s'.closed c = false) : WriterKept cfg s' p (w.push cfg ev) := by
  have haw : ∀ c, w.Awaits c → (w.push cfg ev).Awaits c := by
    rintro c ⟨e, he, hd⟩
    refine ⟨e, ?_, hd⟩
    rw [push_pending]
    split
    · exact mem_append_left _ he
    · exact he
  refine ⟨fun hs c hc hg => ?_, fun hs c hc hcs => ?_, fun c ha hl => ?_⟩
  · rcases hcl c hc with hc | hn
    · rw [push_owned] at hg
      rw [push_phase] at hs
      exact haw c (h.owned hs c hc hg)
    · refine hn fun hst => ?_
      rw [hst] at hs
      cases hs
  · rcases hcl c hc with hc' | hn
    · rw [push_phase] at hs
      refine haw c (h.connect hs c hc' ?_)
      obtain ⟨e, he, hcn⟩ := hcs
      rw [push_pending] at he
      split at he
      · rcases mem_append.1 he with he | he
        · exact ⟨e, he, hcn⟩
        · cases mem_singleton.1 he
          rw [hco c hcn] at hc
          cases hc
      · exact ⟨e, he, hcn⟩
    · exact hn hs
  · rw [push_cmds, push_kept]
    rw [hdb] at hl
    exact h.lasting c (hat c ha hl) hl

theorem WriterKept.stopped (hc : w.cmds = []) (hd : w.phase.done = false)
    (hn : ∀ e ∈ w.owned, ¬Lasting s.db (connKey cfg.environment e.1)) :
    WriterKept cfg s p { w with batch := batch, phase := .stopped } := by
  refine ⟨fun hs => (by cases hs), fun hs => absurd rfl hs, fun c hat hl => ?_⟩
  rcases h.lasting c hat hl with hdl | hg
  · rw [hc] at hdl
    cases hdl
  · simp only [Writer.kept, hd] at hg
    obtain ⟨info, hm⟩ := Assoc.get_ne_none_iff.1 hg
    exact absurd hl (hn _ hm)

theorem WriterKept.finish {failed : Bool} (hok : WriterOk cfg s p w) (hp : w.phase = .pipeline job [] failed)
    (hn : w.phase.failed = true → w.cancelled = true → ∀ e ∈ w.owned, ¬Lasting s.db (connKey cfg.environment e.1)) :
    WriterKept cfg s p (w.finish job failed) := by
  have hcm : w.cmds = [] := by simp [hp]
  have hfl : w.phase.failed = true → w.phase.done = false → w.phase.stopping = false → WriterKept cfg s p w.fail := by
    intro hf hd hs
    unfold Writer.fail
    by_cases hc : w.cancelled = true
    · rw [if_pos hc]
      exact h.stopped hcm hd (hn hf hc)
    · rw [if_neg hc]
      exact h.of_same (by simp [hp]) (by simp [hp]) rfl hcm hd rfl fun ht => absurd ht (Bool.eq_false_iff.1 hs)
  have hpn := finish_pending hp hok.batch
  cases job with
  | flush | flushBeforeHeartbeat | heartbeat began =>
    cases failed with
    | false =>
      exact h.of_same (by simp [hp]) hpn rfl hcm (by simp [hp]) rfl (by simp [hp])
    | true => exact hfl (by simp [hp, Phase.failed]) (by simp [hp]) (by simp [hp])
  | finalDrainFlush =>
    exact h.of_same (by simp [hp]) hpn rfl hcm (by simp [hp]) rfl (fun _ => rfl)
  | sweep =>
    refine ⟨fun hs => (by cases hs), fun hs => absurd rfl hs, fun c hat hl => ?_⟩
    rcases h.lasting c hat hl with hdl | hg
    · rw [hcm] at hdl
      cases hdl
    · simp [hp] at hg

theorem WriterKept.exec {cmds : List (Cmd GoStr)} {failed failed' : Bool}
    (hok : WriterOk cfg s p w) (hp : w.phase = .pipeline job (cmd :: cmds) failed)
    (hdb : (db = s.db ∧ ∀ c, cmd = .del (connKey cfg.environment c) → ¬Lasting s.db (connKey cfg.environment c)) ∨
      db = s.db.exec s.now cmd) : WriterKept cfg { s with db := db } p { w with phase := .pipeline job cmds failed' } := by
  have hk : { w with phase := .pipeline job cmds failed' }.kept = w.kept := by
    unfold Writer.kept
    rw [hp]
    cases job <;> rfl
  have hlg := hok.legal cmd (by simp [hp])
  have hcl := hok.closing
  rw [Writer.cmds, hp] at hcl
  -- a hash that was without a time to live before the command, which did not delete it
  have hb : ∀ c, At s p c → Lasting s.db (connKey cfg.environment c) → cmd ≠ .del (connKey cfg.environment c) →
      .del (connKey cfg.environment c) ∈ cmds ∨ Assoc.get w.kept c ≠ none := by
    intro c hat hl hne
    refine (h.lasting c hat hl).imp_left fun hd => ?_
    rw [Writer.cmds, hp] at hd
    exact (mem_cons.1 hd).resolve_left fun heq => hne heq.symm
  refine ⟨fun hs c hc hg => ?_, fun _ c hc hcn => ?_, fun c hat hl => ?_⟩
  · have haw := h.owned (by rw [hp]; cases job <;> exact hs) c hc hg
    simpa [Writer.Awaits, hp] using haw
  · have haw := h.connect (by simp [hp]) c hc (by simpa [hp] using hcn)
    simpa [Writer.Awaits, hp] using haw
  · rw [hk]
    show .del (connKey cfg.environment c) ∈ cmds ∨ Assoc.get w.kept c ≠ none
    rcases hdb with ⟨rfl, hls⟩ | rfl
    · exact hb c hat hl fun heq => hls c heq hl
    · rcases Lasting.of_exec hl with ⟨hl, hne, -⟩ | ⟨fields, rfl⟩ | ⟨member, rfl⟩
      · exact hb c hat hl hne
      · exact (hcl.1 c rfl (by simp)).symm
      · cases hlg with
        | sadd _ hno => exact absurd rfl (hno c)

theorem WriterKept.exec_other (hne : q ≠ p) (hlg : Legal cfg s q cmd)
    (hdb : db = s.db ∨ db = s.db.exec s.now cmd) : WriterKept cfg { s with db := db } p w := by
  refine ⟨h.owned, h.connect, fun c hat hl => h.lasting c hat ?_⟩
  have hk : cmd.key ≠ connKey cfg.environment c := fun hk => hne ((hlg.at_of_key hk).unique hat)
  rcases hdb with rfl | rfl
  · exact hl
  · obtain ⟨e, he, hex⟩ := hl
    exact ⟨e, (exec_of_ne hk).symm.trans he, hex⟩

theorem WriterKept.congr (hdb : s'.db = s.db) (hcl : ∀ c, At s p c → s'.closed c = s.closed c)
    (hok : WriterOk cfg s p w) (hat : ∀ c, At s' p c → Lasting s.db (connKey cfg.environment c) → At s p c) :
    WriterKept cfg s' p w where
  owned := by
    intro hs c hc hg
    exact h.owned hs c (hcl c (hok.owned.at hg) ▸ hc) hg
  connect := by
    intro hs c hc hcn
    obtain ⟨ev, hev, hk, rfl⟩ := hcn
    exact h.connect hs _ (hcl _ ⟨_, hok.events.connects ev hev hk⟩ ▸ hc) ⟨ev, hev, hk, rfl⟩
  lasting := by
    intro c ha hl
    rw [hdb] at hl
    exact h.lasting c (hat c ha hl) hl

end

theorem Inv.at_of_lasting (hi : Inv cfg s) (hg : Grows s s') (hat : At s' p c)
    (hl : Lasting s.db (connKey cfg.environment c)) : At s p c := by
  obtain ⟨e, he, -⟩ := hl
  obtain ⟨q, hq⟩ := hi.stored c (by simp [he])
  exact (hq.mono hg).unique hat ▸ hq

theorem kept_effect [DecidableEq π] (hi : Inv cfg s) (h : ∀ p, WriterKept cfg s p (s.writers p))
    (hok : Attended cfg s a) (he : Effect cfg s a s') : ∀ p, WriterKept cfg s' p (s'.writers p) := by
  have hg := he.grows
  intro r
  -- the writer of one pod moves, the others are as they were
  have hset : ∀ {q : π} {w : Writer}, (q = r → WriterKept cfg s' q w) → (q ≠ r → WriterKept cfg s' r (s.writers r)) →
      WriterKept cfg s' r (Function.update s.writers q w r) := by
    intro q w hw ho
    rcases eq_or_ne r q with rfl | hne
    · rw [update_self]
      exact hw rfl
    · rw [update_of_ne hne]
      exact ho hne.symm
  cases he with
  | tick _ => exact (h r).congr rfl (fun _ _ => rfl) (hi.writers r) fun c hat _ => hat
  | @connect q ev hn =>
    refine hset ?_ fun _ => (h r).congr rfl (fun _ _ => rfl) (hi.writers r) fun c => hi.at_of_lasting hg
    rintro rfl
    refine (h q).push rfl (fun c => hi.at_of_lasting hg) (fun c hc => .inl hc) fun c hco => ?_
    have hid : ev.connID = c := hco.2
    cases hc : s.closed c with
    | false => exact hc
    | true =>
      obtain ⟨p, info, hop⟩ := hi.closed c hc
      rw [← hid, hn] at hop
      cases hop
  | @disconnect connID conn hop hf =>
    have ho : ∀ c, c ≠ connID → Function.update s.closed connID true c = s.closed c := fun c hne =>
      update_of_ne hne ..
    refine hset ?_ fun hne => ?_
    · intro _
      refine (h conn.pod).push rfl (fun c hat _ => hat) (fun c hc => ?_) fun c hco => (by cases hco.1)
      rcases eq_or_ne c connID with rfl | hne
      · refine .inr fun hs => ⟨disconnectEvent c conn.info, ?_, rfl, rfl⟩
        rw [push_phase] at hs
        rw [push_pending, if_pos ((hok conn hop).resolve_right hs)]
        exact mem_append_right _ (mem_singleton_self _)
      · exact .inl ((ho c hne).symm.trans hc)
    · refine (h r).congr rfl (fun c hat => ho c ?_) (hi.writers r) fun c hat _ => hat
      -- a connection of this pod is not the one that disconnects
      rintro rfl
      have hpd : At s conn.pod c := ⟨conn.info, hop⟩
      exact hne (hpd.unique hat)
  | @subscribe _ q ev hco hds =>
    refine hset ?_ fun _ => (h r).congr rfl (fun _ _ => rfl) (hi.writers r) fun c hat _ => hat
    rintro rfl
    exact (h q).push rfl (fun c hat _ => hat) (fun c hc => .inl hc) fun c hc => absurd hc.1 hco
  | writer hw =>
    rename_i q w
    refine hset ?_ fun _ => (h r).congr rfl (fun _ _ => rfl) (hi.writers r) fun c hat _ => hat
    rintro rfl
    have hk := (h q).local (hi.writers q) hw
    exact ⟨hk.owned, hk.connect, hk.lasting⟩
  | @exec q outcome job cmd cmds failed hp =>
    refine hset ?_ fun hne => ?_
    · rintro rfl
      have hk : WriterKept cfg { s with db := if outcome = .lost then s.db else s.db.exec s.now cmd } q
          { s.writers q with phase := .pipeline job cmds (failed || outcome != .ok) } := by
        refine (h q).exec (hi.writers q) hp ?_
        by_cases hl : outcome = .lost
        · subst hl
          refine .inl ⟨if_pos rfl, fun c hd => ?_⟩
          have hnt := hok cmd (by simp [hp])
          subst hd
          exact hnt rfl
        · exact .inr (if_neg hl)
      exact ⟨hk.owned, hk.connect, hk.lasting⟩
    · have hk : WriterKept cfg { s with db := if outcome = .lost then s.db else s.db.exec s.now cmd } r (s.writers r) := by
        refine (h r).exec_other hne ((hi.writers q).legal cmd (by simp [hp])) ?_
        by_cases hl : outcome = .lost
        · exact .inl (if_pos hl)
        · exact .inr (if_neg hl)
      exact ⟨hk.owned, hk.connect, hk.lasting⟩
  | @finish q job failed hp =>
    refine hset ?_ fun _ => (h r).congr rfl (fun _ _ => rfl) (hi.writers r) fun c hat _ => hat
    rintro rfl
    have hk := (h q).finish (hi.writers q) hp hok
    exact ⟨hk.owned, hk.connect, hk.lasting⟩
  | @stop q hp hcn =>
    refine hset ?_ fun _ => (h r).congr rfl (fun _ _ => rfl) (hi.writers r) fun c hat _ => hat
    rintro rfl
    have hk := @WriterKept.stopped π cfg (s.writers q).batch q s (s.writers q) (h q) (by simp [hp]) (by simp [hp]) hok
    exact ⟨hk.owned, hk.connect, hk.lasting⟩

theorem kept_init (now : Time) (p : π) : WriterKept cfg (init now) p ((init now : State π).writers p) where
  owned := fun _ c hc => (by cases hc)
  connect := fun _ c hc => (by cases hc)
  lasting := by
    intro c hat
    obtain ⟨info, ho⟩ := hat
    cases ho

theorem kept_run [DecidableEq π] (hok : Along (step cfg) (Attended cfg) (init now) as)
    (h : run (step cfg) (init now) as = some s) (p : π) :
    WriterKept cfg s p (s.writers p) := by
  have ha : Inv cfg s ∧ ∀ p, WriterKept cfg s p (s.writers p) := by
    refine run_invariant_along (fun s => Inv cfg s ∧ ∀ p, WriterKept cfg s p (s.writers p)) ?_
      ⟨inv_init now, kept_init now⟩ hok h
    rintro s a s' ⟨hi, hk⟩ hok hs
    have he := effect_of_step hs
    exact ⟨hi.effect he, kept_effect hi hk hok he⟩
  exact ha.2 p

/-! ## The time that is left -/

/-- The `disconnect` is in the queue, there is a command on the hash in the pipeline, or the connection is owned and the sweep is
to come. -/
def Writer.Attends (cfg : RegistryConfig π) (w : Writer) (c : GoStr) : Prop :=
  w.phase ≠ .stopped ∧ (w.Awaits c ∨ (∃ cmd ∈ w.cmds, cmd.key = connKey cfg.environment c) ∨
    (w.phase.stopping = true ∧ Assoc.get w.owned c ≠ none))

instance (w : Writer) (c : GoStr) : Decidable (w.Awaits c) := inferInstanceAs (Decidable (∃ ev ∈ _, _))
instance (w : Writer) (c : GoStr) : Decidable (w.Attends cfg c) := inferInstanceAs (Decidable (_ ∧ (_ ∨ _ ∨ _)))

theorem WriterKept.released (h : WriterKept cfg s p w) (hc : s.closed c = true) (hn : ¬w.Attends cfg c) :
    Released cfg c w := by
  by_cases hst : w.phase = .stopped
  · exact .inl hst
  have haw : ¬w.Awaits c := fun haw => hn ⟨hst, .inl haw⟩
  refine .inr ⟨fun ev hev => ⟨fun hcn => ?_, fun hd => haw ⟨ev, hev, hd⟩⟩, fun cmd hcm hk => ?_, ?_⟩
  · exact haw (h.connect hst c hc ⟨ev, hev, hcn⟩)
  · exact hn ⟨hst, .inr (.inl ⟨cmd, hcm, hk⟩)⟩
  · by_contra ho
    cases hs : w.phase.stopping with
    | false => exact haw (h.owned hs c hc ho)
    | true => exact hn ⟨hst, .inr (.inr ⟨hs, ho⟩)⟩

theorem WriterKept.not_lasting (h : WriterKept cfg s p w) (hat : At s p c) (hr : Released cfg c w) :
    ¬Lasting s.db (connKey cfg.environment c) := by
  intro hl
  rcases h.lasting c hat hl with hd | hk
  · rcases hr with hs | ⟨-, hc, -⟩
    · simp [hs] at hd
    · exact hc _ hd rfl
  · rcases hr with hs | ⟨-, -, ho⟩
    · simp [hs] at hk
    unfold Writer.kept at hk
    split at hk
    · exact hk rfl
    · exact hk ho

theorem ttlSecs_mul_le (cfg : RegistryConfig π) : cfg.ttlSecs * second ≤ cfg.ttl := Int.ediv_mul_le _ (by decide)

/-- **A hash goes within a time to live**, counted from when the writer attends to the disconnected connection no more:
nothing renews it. -/
theorem gone_run [DecidableEq π] {bs : List (Act π)} {conn : Conn π} (hs : run (step cfg) (init now) as = some s)
    (ht : run (step cfg) s bs = some t) (hok : Along (step cfg) (Attended cfg) (init now) as) (ho : s.opened c = some conn)
    (hc : s.closed c = true) (hn : ¬(s.writers conn.pod).Attends cfg c) :
    t.db (connKey cfg.environment c) = s.db (connKey cfg.environment c) ∧
      (s.now + cfg.ttl < t.now → t.db.get t.now (connKey cfg.environment c) = none) := by
  have hi := inv_run hs
  have hk := kept_run hok hs conn.pod
  have hat : At s conn.pod c := ⟨conn.info, ho⟩
  have hr := hk.released hc hn
  have hsm := released_run hi hat hc hr ht
  have hb : Bounded s.db (connKey cfg.environment c) (s.now + cfg.ttl) :=
    (hi.bounded c).mono (Int.add_le_add_left (ttlSecs_mul_le cfg) _)
  have he : ExpiresBy t.db (connKey cfg.environment c) (s.now + cfg.ttl) := by
    unfold ExpiresBy
    rw [hsm]
    exact expiresBy_of_bounded (hk.not_lasting hat hr) hb
  exact ⟨hsm, he.get_eq_none⟩

end Sukko.Registry
