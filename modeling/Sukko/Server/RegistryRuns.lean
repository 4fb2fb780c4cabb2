import Sukko.Server.RegistryPipelines
/-
# Runs of the registry

What a step can do (`Effect`), and what holds in every state (`Inv`): the pipelines hold legal commands, the queues events of
connections of their pods in order, and no key has more than the time to live ahead.
-/

namespace Sukko.Registry
open Keyspace Steps List Function
variable {π : Type} {cfg : RegistryConfig π} {as : List (Act π)} {c : GoStr}

/-! ## Writers, by phase -/

/-- The events that are not in a pipeline yet. -/
def Writer.pending (w : Writer) : List RegistryEvent :=
  match w.phase with
  | .running => w.batch ++ w.workChan
  | .draining batch => batch ++ w.workChan
  | _ => w.workChan

def Writer.cmds (w : Writer) : List (Cmd GoStr) :=
  match w.phase with
  | .pipeline _ cmds _ => cmds
  | _ => []

def Phase.collects : Phase → Bool
  | .running | .pipeline .flush _ _ | .pipeline .flushBeforeHeartbeat _ _ => true
  | _ => false

def Phase.stopping : Phase → Bool
  | .draining _ | .sweeping | .stopped | .pipeline .finalDrainFlush _ _ | .pipeline .sweep _ _ => true
  | _ => false

def Phase.done : Phase → Bool
  | .stopped | .pipeline .sweep _ _ => true
  | _ => false

def Writer.kept (w : Writer) : Owned := if w.phase.done then [] else w.owned

/-- A step of the writer that talks to no one. -/
inductive Local (cfg : RegistryConfig π) (p : π) (now : Time) (w : Writer) : Writer → Prop
  | receive {ev : RegistryEvent} {rest : List RegistryEvent} (hphase : w.phase = .running) (hq : w.workChan = ev :: rest) :
      Local cfg p now w { w with workChan := rest, batch := w.batch ++ [ev] }
  | flush {job : Job} (hphase : w.phase = .running) (hjob : job = .flush ∨ job = .flushBeforeHeartbeat) :
      Local cfg p now w (w.flush cfg job w.batch)
  | idle : Local cfg p now w w
  | beat (hphase : w.phase = .running) (hbatch : w.batch = []) : Local cfg p now w { w with phase := .beating }
  | heartbeat {order : Owned} {adminHealthy : Bool} (hphase : w.phase = .beating) (hperm : order.Perm w.owned) :
      Local cfg p now w { w with
        pendingDrops := 0,
        phase := .pipeline (.heartbeat now) (heartbeatCmds cfg p now order w.pendingDrops adminHealthy) false }
  | restart (hphase : w.phase = .backoff) : Local cfg p now w { w with phase := .running }
  | cancel : Local cfg p now w { w with cancelled := true }
  | shutdown (hphase : w.phase = .running) (hcancel : w.cancelled = true) :
      Local cfg p now w { w with batch := [], phase := if 0 < cfg.drainTimeout then .draining [] else .sweeping }
  | drain {batch rest : List RegistryEvent} {ev : RegistryEvent} (hphase : w.phase = .draining batch)
      (hq : w.workChan = ev :: rest) : Local cfg p now w { w with workChan := rest, phase := .draining (batch ++ [ev]) }
  | drainEmpty (hphase : w.phase = .draining []) : Local cfg p now w { w with phase := .sweeping }
  | drainFlush {batch : List RegistryEvent} (hphase : w.phase = .draining batch) :
      Local cfg p now w (w.flush cfg .finalDrainFlush batch)
  | sweep {order : Owned} (hphase : w.phase = .sweeping) (hperm : order.Perm w.owned) :
      Local cfg p now w { w with phase := .pipeline .sweep (sweepCmds cfg order) false }
  | sweepEmpty (hphase : w.phase = .sweeping) (howned : w.owned = []) : Local cfg p now w { w with phase := .stopped }

section
variable (w : Writer) (ev : RegistryEvent)

theorem push_phase : (w.push cfg ev).phase = w.phase := by
  unfold Writer.push
  split <;> rfl

theorem push_cancelled : (w.push cfg ev).cancelled = w.cancelled := by
  unfold Writer.push
  split <;> rfl

theorem push_owned : (w.push cfg ev).owned = w.owned := by
  unfold Writer.push
  split <;> rfl

theorem push_batch : (w.push cfg ev).batch = w.batch := by
  unfold Writer.push
  split <;> rfl

theorem push_lastBeat : (w.push cfg ev).lastBeat = w.lastBeat := by
  unfold Writer.push
  split <;> rfl

theorem push_kept : (w.push cfg ev).kept = w.kept := by
  unfold Writer.kept
  rw [push_phase, push_owned]

theorem push_cmds : (w.push cfg ev).cmds = w.cmds := by
  unfold Writer.cmds
  rw [push_phase]

theorem push_pending :
    (w.push cfg ev).pending = if w.workChan.length < cfg.buffer then w.pending ++ [ev] else w.pending := by
  unfold Writer.push
  split
  · unfold Writer.pending
    dsimp only
    cases w.phase <;> simp
  · rfl

end

theorem finish_cancelled (w : Writer) (job : Job) (failed : Bool) : (w.finish job failed).cancelled = w.cancelled := by
  cases job <;> cases failed <;> rfl

theorem fail_cmds (w : Writer) : w.fail.cmds = [] := by
  cases hc : w.cancelled <;> simp [Writer.fail, Writer.cmds, hc]

theorem finish_cmds (w : Writer) (job : Job) (failed : Bool) : (w.finish job failed).cmds = [] := by
  cases job <;> cases failed <;> first | rfl | exact fail_cmds w

variable {a : Act π} {cmd : Cmd GoStr} {job : Job} {now : Time} {order owned : Owned} {p : π} {s s' : State π} {w : Writer}
  {ev : RegistryEvent}
variable {w' : Writer}

theorem Local.cancelled (h : Local cfg p now w w') (hc : w.cancelled = true) : w'.cancelled = true := by
  cases h <;> first | exact hc | rfl

theorem Local.pending_sublist (h : Local cfg p now w w') (hb : w.phase.collects = false → w.batch = []) :
    w'.pending.Sublist w.pending := by
  cases h with
  | idle | cancel => exact List.Sublist.refl _
  | flush hp _ | drainFlush hp => simp [Writer.flush, Writer.pending, hp]
  | receive hp hq | drain hp hq => simp [Writer.pending, hp, hq]
  | restart hp => simp [Writer.pending, hp, hb (by rw [hp]; rfl)]
  | shutdown hp _ => by_cases hd : 0 < cfg.drainTimeout <;> simp [Writer.pending, hp, hd]
  | beat hp _ | heartbeat hp _ | drainEmpty hp | sweep hp _ | sweepEmpty hp _ =>
    simp [Writer.pending, hp]

variable {failed adminHealthy : Bool}

theorem finish_pending (hp : w.phase = .pipeline job [] failed) (hb : w.phase.collects = false → w.batch = []) :
    (w.finish job failed).pending = w.pending := by
  have hw : w.pending = w.workChan := by simp [Writer.pending, hp]
  have hf : w.fail.pending = w.workChan := by cases hc : w.cancelled <;> simp [Writer.fail, Writer.pending, hc]
  rw [hw]
  cases job with
  | heartbeat began =>
    cases failed with
    | false => simp [Writer.finish, Writer.pending, hb (by rw [hp]; rfl)]
    | true => exact hf
  | flush | flushBeforeHeartbeat | finalDrainFlush | sweep => cases failed <;> first | rfl | exact hf

theorem finish_owned (h : Assoc.get w.owned c = none) : Assoc.get (w.finish job failed).owned c = none := by
  cases job <;> cases failed <;> first | exact h | rfl

/-! ## An invariant of every run -/

structure WriterOk (cfg : RegistryConfig π) (s : State π) (p : π) (w : Writer) : Prop where
  legal : ∀ cmd ∈ w.cmds, Legal cfg s p cmd
  closing : Closing cfg w.kept w.cmds
  batch : w.phase.collects = false → w.batch = []
  shut : w.phase.stopping = true → w.cancelled = true
  events : EventsOk s p w.pending
  owned : OwnedOk s p w.owned
  lastBeat : w.lastBeat ≤ s.now
  began : ∀ began cmds failed, w.phase = .pipeline (.heartbeat began) cmds failed → w.lastBeat ≤ began ∧ began ≤ s.now

theorem WriterOk.mono (hg : Grows s s') (h : WriterOk cfg s p w) : WriterOk cfg s' p w where
  legal := fun cmd hc => (h.legal cmd hc).mono hg
  closing := h.closing
  batch := h.batch
  shut := h.shut
  events := h.events.mono hg
  owned := h.owned.mono hg
  lastBeat := Int.le_trans h.lastBeat hg.now
  began := fun began cmds failed hp => (h.began began cmds failed hp).imp_right fun hle => Int.le_trans hle hg.now

theorem WriterOk.of_idle (hp : ∀ job cmds failed, w.phase ≠ .pipeline job cmds failed)
    (hb : w.phase.collects = false → w.batch = []) (hs : w.phase.stopping = true → w.cancelled = true)
    (he : EventsOk s p w.pending) (ho : OwnedOk s p w.owned) (hbt : w.lastBeat ≤ s.now) : WriterOk cfg s p w := by
  have hc : w.cmds = [] := by
    unfold Writer.cmds
    split
    · exact absurd ‹_› (hp _ _ _)
    · rfl
  refine ⟨by simp [hc], by simp [hc, Closing], hb, hs, he, ho, hbt, ?_⟩
  intro began cmds failed hph
  exact absurd hph (hp _ _ _)

theorem EventsOk.concat {evs : List RegistryEvent} (h : EventsOk s p evs)
    (hc : ev.kind = .connect → s.opened ev.connID = some ⟨p, ev.info⟩)
    (hd : ev.kind = .disconnect → At s p ev.connID ∧ s.closed ev.connID = true) (ho : ∀ e ∈ evs, Precedes e ev) :
    EventsOk s p (evs ++ [ev]) where
  connects := forall_mem_append.2 ⟨h.connects, forall_mem_singleton.2 hc⟩
  disconnects := forall_mem_append.2 ⟨h.disconnects, forall_mem_singleton.2 hd⟩
  ordered := by
    refine pairwise_append.2 ⟨h.ordered, pairwise_singleton _ _, fun a ha b hb => ?_⟩
    cases mem_singleton.1 hb
    exact ho a ha

theorem WriterOk.push (hg : Grows s s') (h : WriterOk cfg s p w)
    (hev : EventsOk s' p (w.pending ++ [ev])) : WriterOk cfg s' p (w.push cfg ev) where
  legal := by
    rw [push_cmds]
    exact (h.mono hg).legal
  closing := by
    rw [push_cmds, push_kept]
    exact h.closing
  batch := by
    rw [push_phase, push_batch]
    exact h.batch
  shut := by
    rw [push_phase, push_cancelled]
    exact h.shut
  events := by
    rw [push_pending]
    split
    · exact hev
    · exact h.events.mono hg
  owned := by
    rw [push_owned]
    exact h.owned.mono hg
  lastBeat := by
    rw [push_lastBeat]
    exact (h.mono hg).lastBeat
  began := by
    rw [push_phase, push_lastBeat]
    exact (h.mono hg).began

theorem WriterOk.flush {batch : List RegistryEvent} (h : WriterOk cfg s p w) (hj : ∀ began, job ≠ .heartbeat began)
    (hd : (Phase.pipeline job [] false).done = false) (he : EventsOk s p (batch ++ w.workChan))
    (hb : (Phase.pipeline job [] false).collects = false → w.batch = [])
    (hs : (Phase.pipeline job [] false).stopping = true → w.cancelled = true) :
    WriterOk cfg s p (w.flush cfg job batch) where
  legal := (legal_flushBatch (he.sublist (List.sublist_append_left _ _)) h.owned).2
  closing := by
    have hk : (w.flush cfg job batch).kept = (flushBatch cfg w.owned batch).1 := by
      cases job <;> first | rfl | cases hd
    rw [hk]
    exact closing_flushBatch w.owned batch
  batch := by
    intro hc
    refine hb ?_
    cases job <;> exact hc
  shut := by
    intro hc
    refine hs ?_
    cases job <;> exact hc
  events := he.sublist (sublist_append_right _ _)
  owned := (legal_flushBatch (he.sublist (sublist_append_left _ _)) h.owned).1
  lastBeat := h.lastBeat
  began := by
    intro began cmds failed hp
    cases hp
    exact absurd rfl (hj began)

theorem closing_of_owned {cmds : List (Cmd GoStr)}
    (h : ∀ cmd ∈ cmds, ∀ c, cmd.key = connKey cfg.environment c → cmd ≠ .del (connKey cfg.environment c) →
      Assoc.get owned c ≠ none) : Closing cfg owned cmds := by
  have ha : Closing cfg owned (cmds ++ []) := closing_append trivial fun cmd hc c hk hd =>
    .inl (h cmd hc c hk hd)
  rwa [append_nil] at ha

theorem OwnedOk.at (h : OwnedOk s p owned) (hg : Assoc.get owned c ≠ none) : At s p c := by
  obtain ⟨info, hi⟩ := Option.ne_none_iff_exists'.1 hg
  exact ⟨info, h c info hi⟩

theorem mem_heartbeatCmds {drops : Nat} (h : cmd ∈ heartbeatCmds cfg p now order drops adminHealthy) :
    (∃ e ∈ order, cmd = .expire (connKey cfg.environment e.1) cfg.ttlSecs) ∨
    (∃ key, NoConn cfg key ∧ cmd = .expire key cfg.idxTTL) ∨
    ∃ fields, cmd = .hset (healthKey cfg.environment (cfg.podID p)) fields := by
  rcases mem_append.1 h with h | h
  · exact (mem_renewals h).imp_right .inl
  · simp only [mem_cons, not_mem_nil, or_false] at h
    rcases h with rfl | rfl
    · exact .inr (.inr ⟨_, rfl⟩)
    · exact .inr (.inl ⟨_, noConn_healthKey _, rfl⟩)

section
variable (h : WriterOk cfg s p w)
include h

theorem WriterOk.heartbeat (hph : w.phase = .beating) (hpr : order.Perm w.owned) (hl : w.lastBeat ≤ now) (hn : now ≤ s.now) :
    WriterOk cfg s p { w with
      pendingDrops := 0,
      phase := .pipeline (.heartbeat now) (heartbeatCmds cfg p now order w.pendingDrops adminHealthy) false } := by
  have ho : ∀ e ∈ order, Assoc.get w.owned e.1 ≠ none := fun e he =>
    Assoc.get_ne_none_iff.2 ⟨e.2, hpr.subset he⟩
  refine ⟨fun cmd hcm => ?_, closing_of_owned fun cmd hcm c hk _ => ?_, fun _ => h.batch (by rw [hph]; rfl),
    fun hc => (by cases hc), ?_, h.owned, h.lastBeat, ?_⟩
  · rcases mem_heartbeatCmds hcm with ⟨e, he, rfl⟩ | ⟨key, hk, rfl⟩ | ⟨fields, rfl⟩
    · exact .expire (h.owned.at (ho e he))
    · exact .expireOther hk cfg.ttlSecs_le_idxTTL
    · exact .health fields
  · rcases mem_heartbeatCmds hcm with ⟨e, he, rfl⟩ | ⟨key, hno, rfl⟩ | ⟨fields, rfl⟩
    · exact connKey_inj.1 hk ▸ ho e he
    · exact absurd hk.symm (hno c)
    · exact absurd hk.symm (noConn_healthKey _ c)
  · have hev := h.events
    rw [Writer.pending, hph] at hev
    exact hev
  · intro began cmds failed hp
    cases hp
    exact ⟨hl, hn⟩

theorem WriterOk.sweep (hp : w.phase = .sweeping) (hpr : order.Perm w.owned)
    (hl : ∀ c, Leaving s p c) : WriterOk cfg s p { w with phase := .pipeline .sweep (sweepCmds cfg order) false } := by
  refine ⟨fun cmd hc => ?_, closing_of_owned fun cmd hc c hk hd => ?_, fun _ => h.batch (by rw [hp]; rfl),
    fun _ => h.shut (by rw [hp]; rfl), ?_, h.owned, h.lastBeat, by simp⟩
  · obtain ⟨c, info, hm, hc⟩ := mem_sweepCmds.1 hc
    exact legal_removeCmds (h.owned.at (Assoc.get_ne_none_iff.2 ⟨info, hpr.subset hm⟩)) (hl c) hc
  · obtain ⟨c', info, hm, hc⟩ := mem_sweepCmds.1 hc
    rcases mem_removeCmds hc with rfl | ⟨key, hno, rfl⟩
    · exact absurd (by rw [connKey_inj.1 hk]) hd
    · exact absurd hk.symm (hno c)
  · have hev := h.events
    rw [Writer.pending, hp] at hev
    exact hev

theorem WriterOk.local (hl : Local cfg p s.now w w') (hg : Grows s s')
    (hc : w.cancelled = true → (s'.writers p).cancelled = true) : WriterOk cfg s' p w' := by
  have h' := h.mono hg
  have hev : EventsOk s' p w'.pending := h'.events.sublist (hl.pending_sublist h.batch)
  cases hl with
  | receive hp hq =>
    exact .of_idle (by simp [hp]) (by simp [hp, Phase.collects]) (by simp [hp, Phase.stopping]) hev h'.owned h'.lastBeat
  | flush hp hj =>
    have hb := h'.events
    rw [Writer.pending, hp] at hb
    refine h'.flush ?_ ?_ hb ?_ ?_
    · rcases hj with rfl | rfl <;> simp
    · rcases hj with rfl | rfl <;> rfl
    · rcases hj with rfl | rfl <;> simp [Phase.collects]
    · rcases hj with rfl | rfl <;> simp [Phase.stopping]
  | idle => exact h'
  | beat hp hb => exact .of_idle (by simp) (fun _ => hb) (by simp [Phase.stopping]) hev h'.owned h'.lastBeat
  | heartbeat hp hpr => exact h'.heartbeat hp hpr h.lastBeat hg.now
  | restart hp =>
    exact .of_idle (by simp) (fun _ => h.batch (by rw [hp]; rfl)) (by simp [Phase.stopping]) hev h'.owned h'.lastBeat
  | cancel => exact ⟨h'.legal, h'.closing, h'.batch, fun _ => rfl, h'.events, h'.owned, h'.lastBeat, h'.began⟩
  | shutdown hp hcn =>
    refine .of_idle ?_ (fun _ => rfl) (fun _ => hcn) hev h'.owned h'.lastBeat
    dsimp only
    split <;> simp
  | drainFlush hp =>
    have hb := h'.events
    rw [Writer.pending, hp] at hb
    exact h'.flush (by simp) rfl hb (fun _ => h.batch (by rw [hp]; rfl)) (fun _ => h.shut (by rw [hp]; rfl))
  | sweep hp hpr => exact h'.sweep hp hpr fun c => .inr (hc (h.shut (by rw [hp]; rfl)))
  | drain hp _ | drainEmpty hp | sweepEmpty hp _ =>
    exact .of_idle (by simp) (fun _ => h.batch (by rw [hp]; rfl)) (fun _ => h.shut (by rw [hp]; rfl)) hev h'.owned h'.lastBeat

theorem WriterOk.exec {cmds : List (Cmd GoStr)} {failed failed' : Bool} (hph : w.phase = .pipeline job (cmd :: cmds) failed) :
    WriterOk cfg s p { w with phase := .pipeline job cmds failed' } := by
  have hl := h.legal
  have hcl := h.closing
  have hev := h.events
  rw [Writer.cmds, hph] at hl hcl
  rw [Writer.pending, hph] at hev
  have hk : w.kept = { w with phase := .pipeline job cmds failed' }.kept := by
    unfold Writer.kept
    rw [hph]
    cases job <;> rfl
  refine ⟨fun c hc => hl c (mem_cons_of_mem _ hc), hk ▸ hcl.2, fun hc => h.batch ?_, fun hc => h.shut ?_, hev,
    h.owned, h.lastBeat, ?_⟩
  · rw [hph]
    cases job <;> exact hc
  · rw [hph]
    cases job <;> exact hc
  · intro began cmds' f hp
    cases hp
    exact h.began began _ _ hph

theorem WriterOk.fail (hev : EventsOk s p w.workChan) : WriterOk cfg s p w.fail := by
  unfold Writer.fail
  cases hc : w.cancelled
  · exact .of_idle (by simp) (fun _ => rfl) (by simp [Phase.stopping]) hev h.owned h.lastBeat
  · exact .of_idle (by simp) (fun _ => rfl) (fun _ => rfl) hev h.owned h.lastBeat

theorem WriterOk.finish {failed : Bool} (hp : w.phase = .pipeline job [] failed) : WriterOk cfg s p (w.finish job failed) := by
  have hev : EventsOk s p (w.finish job failed).pending := finish_pending hp h.batch ▸ h.events
  have hf : WriterOk cfg s p w.fail := h.fail (by simpa [Writer.pending, hp] using h.events)
  have hs := h.shut
  rw [hp] at hs
  cases job with
  | flush | flushBeforeHeartbeat =>
    cases failed with
    | false => exact .of_idle (by simp [Writer.finish]) (fun _ => rfl) (by simp [Writer.finish, Phase.stopping]) hev h.owned h.lastBeat
    | true => exact hf
  | heartbeat began =>
    cases failed with
    | false =>
      exact .of_idle (by simp [Writer.finish]) (fun _ => h.batch (by rw [hp]; rfl)) (by simp [Writer.finish, Phase.stopping])
        hev h.owned (h.began began _ _ hp).2
    | true => exact hf
  | finalDrainFlush =>
    exact .of_idle (by simp [Writer.finish]) (fun _ => h.batch (by rw [hp]; rfl)) (fun _ => hs rfl) hev h.owned h.lastBeat
  | sweep =>
    refine .of_idle (by simp [Writer.finish]) (fun _ => h.batch (by rw [hp]; rfl)) (fun _ => hs rfl) hev ?_ h.lastBeat
    intro c info hg
    cases hg

theorem WriterOk.stop (hp : w.phase = .backoff) (hc : w.cancelled = true) : WriterOk cfg s p { w with phase := .stopped } := by
  have hev := h.events
  rw [Writer.pending, hp] at hev
  exact .of_idle (by simp) (fun _ => h.batch (by rw [hp]; rfl)) (fun _ => hc) hev h.owned h.lastBeat

end

/-! ## Steps -/

variable [DecidableEq π]

inductive Effect (cfg : RegistryConfig π) (s : State π) : Act π → State π → Prop
  | tick {now : Time} (hnow : s.now ≤ now) : Effect cfg s (.tick now) { s with now := now }
  | connect {p : π} {ev : RegistryEvent} (hnew : s.opened ev.connID = none) :
      Effect cfg s (.connect p ev) { s.setWriter p ((s.writers p).push cfg (connectEvent cfg p ev)) with
        opened := Function.update s.opened ev.connID (some ⟨p, ev.info⟩) }
  | disconnect {connID : GoStr} {conn : Conn π} (hopen : s.opened connID = some conn) (hclosed : s.closed connID = false) :
      Effect cfg s (.disconnect connID)
        { s.setWriter conn.pod ((s.writers conn.pod).push cfg (disconnectEvent connID conn.info)) with
          closed := Function.update s.closed connID true }
  | subscribe {a : Act π} {p : π} {ev : RegistryEvent} (hcon : ev.kind ≠ .connect) (hdis : ev.kind ≠ .disconnect) :
      Effect cfg s a (s.setWriter p ((s.writers p).push cfg ev))
  | writer {a : Act π} {p : π} {w : Writer} (hw : Local cfg p s.now (s.writers p) w) : Effect cfg s a (s.setWriter p w)
  | exec {p : π} {outcome : Outcome} {job : Job} {cmd : Cmd GoStr} {cmds : List (Cmd GoStr)} {failed : Bool}
      (hphase : (s.writers p).phase = .pipeline job (cmd :: cmds) failed) :
      Effect cfg s (.exec p outcome)
        { s.setWriter p { s.writers p with phase := .pipeline job cmds (failed || outcome != .ok) } with
          db := if outcome = .lost then s.db else s.db.exec s.now cmd }
  | finish {p : π} {job : Job} {failed : Bool} (hphase : (s.writers p).phase = .pipeline job [] failed) :
      Effect cfg s (.finish p) (s.setWriter p ((s.writers p).finish job failed))
  | stop {p : π} (hphase : (s.writers p).phase = .backoff) (hcancel : (s.writers p).cancelled = true) :
      Effect cfg s (.stop p) (s.setWriter p { s.writers p with phase := .stopped })

theorem effect_of_step (h : step cfg s a = some s') : Effect cfg s a s' := by
  cases a with simp only [step] at h
  | tick now =>
    split at h <;> cases h
    exact .tick ‹_›
  | connect p ev =>
    split at h <;> cases h
    exact .connect ‹_›
  | disconnect connID =>
    split at h <;> cases h
    exact .disconnect ‹_› ‹_›
  | subscribe p unsubscribe connID channels capped =>
    cases h
    refine .subscribe ?_ ?_
    · cases unsubscribe <;> simp [subscribeEvent]
    · cases unsubscribe <;> simp [subscribeEvent]
  | exec p outcome =>
    split at h <;> cases h
    exact .exec ‹_›
  | finish p =>
    split at h <;> cases h
    exact .finish ‹_›
  | stop p =>
    split at h <;> cases h
    exact .stop ‹_› ‹_›
  | receive p =>
    split at h <;> cases h
    exact .writer (.receive ‹_› ‹_›)
  | flushTick p =>
    split at h
    · split at h <;> cases h
      · -- nothing to flush: the writer is as it was
        have hs : s.setWriter p (s.writers p) = s := by simp [State.setWriter]
        have he : Effect cfg s (.flushTick p) (s.setWriter p (s.writers p)) := .writer .idle
        rwa [hs] at he
      · exact .writer (.flush ‹_› (.inl rfl))
    · cases h
  | heartbeatTick p =>
    split at h
    · by_cases hb : (s.writers p).batch = []
      · rw [if_pos hb] at h
        cases h
        exact .writer (.beat ‹_› hb)
      · rw [if_neg hb] at h
        cases h
        exact .writer (.flush ‹_› (.inr rfl))
    · cases h
  | heartbeat p order adminHealthy =>
    split at h
    · split at h <;> cases h
      exact .writer (.heartbeat ‹_› ‹_›)
    · cases h
  | restart p =>
    split at h <;> cases h
    exact .writer (.restart ‹_›)
  | cancel p =>
    cases h
    exact .writer .cancel
  | shutdown p =>
    split at h <;> cases h
    exact .writer (.shutdown ‹_› ‹_›)
  | drain p =>
    split at h <;> cases h
    exact .writer (.drain ‹_› ‹_›)
  | drainTimeout p =>
    split at h
    · rename_i batch hp
      by_cases hb : batch = []
      · subst hb
        rw [if_pos rfl] at h
        cases h
        exact .writer (.drainEmpty hp)
      · rw [if_neg hb] at h
        cases h
        exact .writer (.drainFlush hp)
    · cases h
  | sweep p order =>
    split at h
    · split at h
      · rename_i hp hpr
        by_cases hb : order = []
        · subst hb
          rw [if_pos rfl] at h
          cases h
          exact .writer (.sweepEmpty hp hpr.symm.eq_nil)
        · rw [if_neg hb] at h
          cases h
          exact .writer (.sweep hp hpr)
      · cases h
    · cases h

theorem grows_setWriter (h : (s.writers p).cancelled = true → w.cancelled = true) : Grows s (s.setWriter p w) where
  opened := fun _ _ h => h
  closed := fun _ h => h
  cancelled := by
    intro q hq
    rcases eq_or_ne q p with rfl | hne
    · simpa [State.setWriter] using h hq
    · simpa [State.setWriter, update_of_ne hne] using hq
  now := Int.le_refl _

theorem Effect.grows (h : Effect cfg s a s') : Grows s s' := by
  have hp : ∀ p ev, Grows s (s.setWriter p ((s.writers p).push cfg ev)) := fun p ev =>
    grows_setWriter fun hc => by rw [push_cancelled]; exact hc
  cases h with
  | tick hn => exact ⟨fun _ _ h => h, fun _ h => h, fun _ h => h, hn⟩
  | @connect p ev hnw =>
    refine ⟨fun c conn hc => ?_, fun _ h => h, (hp p _).cancelled, Int.le_refl _⟩
    have hne : c ≠ ev.connID := by
      rintro rfl
      rw [hnw] at hc
      cases hc
    simpa [update_of_ne hne] using hc
  | @disconnect connID conn ho hcl =>
    refine ⟨fun _ _ h => h, fun c hc => ?_, (hp conn.pod _).cancelled, Int.le_refl _⟩
    rcases eq_or_ne c connID with rfl | hne
    · simp
    · simpa [update_of_ne hne] using hc
  | subscribe _ _ => exact hp _ _
  | writer hw => exact grows_setWriter hw.cancelled
  | @exec p outcome job cmd cmds failed hph =>
    have hg : Grows s (s.setWriter p { s.writers p with phase := .pipeline job cmds (failed || outcome != .ok) }) :=
      grows_setWriter fun hc => hc
    exact ⟨hg.opened, hg.closed, hg.cancelled, hg.now⟩
  | finish hph => exact grows_setWriter fun hc => by rw [finish_cancelled]; exact hc
  | stop _ hcn => exact grows_setWriter fun _ => hcn

theorem grows_run {t : State π} (h : run (step cfg) s as = some t) : Grows s t := by
  refine run_invariant (fun t => Grows s t) ?_ ⟨fun _ _ h => h, fun _ h => h, fun _ h => h, Int.le_refl _⟩ h
  intro t a u hg hs
  have hg' := (effect_of_step hs).grows
  exact ⟨fun c conn h => hg'.opened c conn (hg.opened c conn h), fun c h => hg'.closed c (hg.closed c h),
    fun p h => hg'.cancelled p (hg.cancelled p h), Int.le_trans hg.now hg'.now⟩

structure Inv (cfg : RegistryConfig π) (s : State π) : Prop where
  writers : ∀ p, WriterOk cfg s p (s.writers p)
  hashes : ∀ c, IsHash s.db (connKey cfg.environment c)
  sets : ∀ key, NoConn cfg key → (∀ p, key ≠ healthKey cfg.environment (cfg.podID p)) → IsSet s.db key
  bounded : ∀ c, Bounded s.db (connKey cfg.environment c) (s.now + cfg.ttlSecs * second)
  stored : ∀ c, s.db (connKey cfg.environment c) ≠ none → ∃ p, At s p c
  closed : ∀ c, s.closed c = true → ∃ p, At s p c

theorem Inv.setWriter (h : Inv cfg s) (hg : Grows s s') (hw : s'.writers = Function.update s.writers p w) (hdb : s'.db = s.db)
    (hok : WriterOk cfg s' p w) (hcl : ∀ c, s'.closed c = true → s.closed c = true ∨ ∃ p, At s p c) : Inv cfg s' where
  writers := by
    intro q
    rcases eq_or_ne q p with rfl | hne
    · rw [hw, update_self]
      exact hok
    · rw [hw, update_of_ne hne]
      exact (h.writers q).mono hg
  hashes := hdb ▸ h.hashes
  sets := hdb ▸ h.sets
  bounded := fun c => hdb ▸ (h.bounded c).mono (Int.add_le_add_right hg.now _)
  stored := by
    intro c hc
    obtain ⟨q, hq⟩ := h.stored c (hdb ▸ hc)
    exact ⟨q, hq.mono hg⟩
  closed := by
    intro c hc
    obtain ⟨q, hq⟩ := (hcl c hc).elim (h.closed c) id
    exact ⟨q, hq.mono hg⟩

omit [DecidableEq π] in
theorem Inv.execDb (h : Inv cfg s) (hl : Legal cfg s p cmd) : Inv cfg { s with db := s.db.exec s.now cmd } where
  writers := by
    intro q
    have hg : Grows s { s with db := s.db.exec s.now cmd } := ⟨fun _ _ h => h, fun _ h => h, fun _ h => h, Int.le_refl _⟩
    exact (h.writers q).mono hg
  hashes := by
    intro c
    refine (h.hashes c).exec fun member => ?_
    rintro rfl
    cases hl with
    | sadd _ hno => exact hno c rfl
  sets := by
    intro key hno hh
    refine (h.sets key hno hh).exec fun fields => ?_
    rintro rfl
    cases hl with
    | hset _ _ => exact hno _ rfl
    | health fields => exact hh p rfl
  bounded := by
    intro c
    refine (h.bounded c).exec fun seconds => ?_
    rintro rfl
    rcases hl.expire_cases.2 with hno | rfl
    · exact absurd rfl (hno c)
    · exact Int.le_refl _
  stored := by
    intro c hc
    by_cases hk : cmd.key = connKey cfg.environment c
    · exact ⟨p, hl.at_of_key hk⟩
    · have hc' : s.db.exec s.now cmd (connKey cfg.environment c) ≠ none := hc
      rw [exec_of_ne hk] at hc'
      exact h.stored c hc'
  closed := h.closed

theorem Inv.effect (h : Inv cfg s) (he : Effect cfg s a s') : Inv cfg s' := by
  have hg := he.grows
  cases he with
  | tick hnw =>
    exact ⟨fun q => (h.writers q).mono hg, h.hashes, h.sets, fun c => (h.bounded c).mono (Int.add_le_add_right hnw _), h.stored,
      h.closed⟩
  | @connect p ev hn =>
    have ho : Function.update s.opened ev.connID (some ⟨p, ev.info⟩) ev.connID = some ⟨p, ev.info⟩ := update_self ..
    refine h.setWriter hg rfl rfl ((h.writers p).push hg (((h.writers p).events.mono hg).concat (fun _ => ho) ?_ ?_))
      fun _ => .inl
    · intro hk
      cases hk
    · -- the identifier is new: no event that waits is about it
      intro e he c hc
      have hid : ev.connID = c := hc.2
      constructor
      · intro hco
        have := (h.writers p).events.connects e he hco.1
        rw [hco.2, ← hid, hn] at this
        cases this
      · intro hd
        obtain ⟨⟨info, hat⟩, -⟩ := (h.writers p).events.disconnects e he hd.1
        rw [hd.2, ← hid, hn] at hat
        cases hat
  | @disconnect connID conn ho hcl =>
    obtain ⟨pod, info⟩ := conn
    refine h.setWriter hg rfl rfl ((h.writers pod).push hg (((h.writers pod).events.mono hg).concat ?_ ?_ ?_)) ?_
    · intro hk
      cases hk
    · intro _
      exact ⟨⟨info, ho⟩, update_self ..⟩
    · intro e _ c hc
      cases hc.1
    · intro c hc
      rcases eq_or_ne c connID with rfl | hne
      · exact .inr ⟨pod, info, ho⟩
      · exact .inl (by simpa [update_of_ne hne] using hc)
  | @subscribe _ p ev hco hd =>
    refine h.setWriter hg rfl rfl ((h.writers p).push hg (((h.writers p).events.mono hg).concat ?_ ?_ ?_)) fun _ => .inl
    · exact fun hk => absurd hk hco
    · exact fun hk => absurd hk hd
    · intro e _ c hc
      exact absurd hc.1 hco
  | writer hw =>
    rename_i p w
    refine h.setWriter hg rfl rfl ((h.writers p).local hw hg fun hc => ?_) fun _ => .inl
    simpa [State.setWriter] using hw.cancelled hc
  | @exec p outcome job cmd cmds failed hp =>
    have hl : Legal cfg s p cmd := by
      refine (h.writers p).legal cmd ?_
      simp [Writer.cmds, hp]
    have hs : Inv cfg { s with db := if outcome = .lost then s.db else s.db.exec s.now cmd } := by
      split
      · exact h
      · exact h.execDb hl
    have hg' : Grows { s with db := if outcome = .lost then s.db else s.db.exec s.now cmd } _ :=
      ⟨hg.opened, hg.closed, hg.cancelled, hg.now⟩
    exact hs.setWriter hg' rfl rfl (((h.writers p).exec hp).mono hg) fun _ => .inl
  | @finish p job failed hp =>
    exact h.setWriter hg rfl rfl (((h.writers p).finish hp).mono hg) fun _ => .inl
  | @stop p hp hcn =>
    exact h.setWriter hg rfl rfl (((h.writers p).stop hp hcn).mono hg) fun _ => .inl

omit [DecidableEq π] in
theorem inv_init (now : Time) : Inv cfg (init now : State π) where
  writers := by
    intro p
    refine .of_idle (by simp [init, Writer.new]) (by simp [init, Writer.new, Phase.collects])
      (by simp [init, Writer.new, Phase.stopping]) ?_ ?_ (Int.le_refl _)
    · exact ⟨by simp [init, Writer.new, Writer.pending], by simp [init, Writer.new, Writer.pending],
        by simp [init, Writer.new, Writer.pending]⟩
    · intro c info hg
      cases hg
  hashes := by
    intro c members expires h
    cases h
  sets := by
    intro key _ _ fields expires h
    cases h
  bounded := by
    intro c e h
    cases h
  stored := by
    intro c h
    exact absurd rfl h
  closed := by
    intro c h
    cases h

theorem inv_run (h : run (step cfg) (init now) as = some s) : Inv cfg s :=
  run_invariant (Inv cfg) (fun _ _ _ hi hs => hi.effect (effect_of_step hs)) (inv_init now) h

end Sukko.Registry
