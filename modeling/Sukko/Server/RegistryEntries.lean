import Sukko.Server.RegistryRelease
/-
# Connections that stay

A connection has up to three marks: its hash, and its places in the indexes of its tenant and its API key. How long a mark
lasts is counted from the last heartbeat that succeeded (`Writer.horizon`); the clock must not run past that (`Beats`).
-/

namespace Sukko.Registry
open Keyspace Steps List Function Option
variable {π : Type} {cfg : RegistryConfig π} {db : Db GoStr} {ev : RegistryEvent} {seconds : Int}

/-! ## Marks -/

theorem tenantIdxKey_ne_healthKey (env t p : GoStr) : tenantIdxKey env t ≠ healthKey env p := by
  intro h
  have ht := congrArg (List.take 6) h
  simp [tenantIdxKey, healthKey, str] at ht

theorem apiKeyIdxKey_ne_healthKey (env t k p : GoStr) : apiKeyIdxKey env t k ≠ healthKey env p := by
  intro h
  have ht := congrArg (List.take 6) h
  simp [apiKeyIdxKey, healthKey, str] at ht

inductive Mark
  | conn
  | tenant
  | apiKey
deriving DecidableEq

namespace Mark
variable (cfg) (c : GoStr) (info : ConnOwnership)

def key : Mark → GoStr
  | .conn => connKey cfg.environment c
  | .tenant => tenantIdxKey cfg.environment info.tenantID
  | .apiKey => apiKeyIdxKey cfg.environment info.tenantID info.apiKeyID

def Applies (m : Mark) : Prop := m = .apiKey → info.apiKeyID ≠ []

def Until (db : Db GoStr) (t : Time) : Mark → Prop
  | .conn => HashUntil db (key cfg c info .conn) t
  | .tenant => MemberUntil db (key cfg c info .tenant) c t
  | .apiKey => MemberUntil db (key cfg c info .apiKey) c t

def Writes (cmd : Cmd GoStr) : Mark → Prop
  | .conn => ∃ fields, fields ≠ [] ∧ cmd = .hset (key cfg c info .conn) fields
  | .tenant => cmd = .sadd (key cfg c info .tenant) c
  | .apiKey => cmd = .sadd (key cfg c info .apiKey) c

variable {cfg c info}

theorem Until.mono {t t' : Time} {m : Mark} (h : m.Until cfg c info db t) (ht : t' ≤ t) : m.Until cfg c info db t' := by
  cases m with
  | conn => exact HashUntil.mono h ht
  | tenant | apiKey => exact MemberUntil.mono h ht

theorem key_ne {m : Mark} (hm : m ≠ .conn) :
    NoConn cfg (m.key cfg c info) ∧ ∀ p, m.key cfg c info ≠ healthKey cfg.environment p := by
  cases m with
  | conn => exact absurd rfl hm
  | tenant => exact ⟨noConn_tenantIdxKey _, tenantIdxKey_ne_healthKey _ _⟩
  | apiKey => exact ⟨noConn_apiKeyIdxKey _ _, apiKeyIdxKey_ne_healthKey _ _ _⟩

end Mark

variable {a : Act π} {cmd : Cmd GoStr} {cmds : List (Cmd GoStr)} {failed : Bool} {job : Job} {m : Mark} {q : π} {w : Writer}

theorem hashUntil_legal {s : State π} {p : π} {c : GoStr} {t : Time} (h : HashUntil s.db (connKey cfg.environment c) t)
    (hl : Legal cfg s q cmd) (hat : At s p c) (hs : ¬Leaving s p c) (hn : s.now ≤ t)
    (ht : t ≤ s.now + cfg.ttlSecs * second) : HashUntil (s.db.exec s.now cmd) (connKey cfg.environment c) t := by
  refine h.exec hn fun hk => ?_
  have hp : q = p := (hl.at_of_key hk).unique hat
  cases hl with
  | hset _ _ =>
    cases connKey_inj.1 hk
    exact .inl ⟨_, rfl⟩
  | expire _ =>
    cases connKey_inj.1 hk
    exact .inr ⟨_, rfl, cfg.ttlSecs_pos, ht⟩
  | del _ hlf =>
    cases connKey_inj.1 hk
    exact absurd (hp ▸ hlf) hs
  | health fields => exact absurd hk.symm (noConn_healthKey _ c)
  | expireOther hno _ | sadd _ hno | srem _ _ hno => exact absurd hk.symm (hno c)

theorem memberUntil_legal {s : State π} {p : π} {c key : GoStr} {t : Time} (h : MemberUntil s.db key c t)
    (hl : Legal cfg s q cmd) (hno : NoConn cfg key) (hh : ∀ p, key ≠ healthKey cfg.environment p) (hat : At s p c)
    (hst : ¬Leaving s p c) (hn : s.now ≤ t) (ht : t ≤ s.now + cfg.ttlSecs * second) :
    MemberUntil (s.db.exec s.now cmd) key c t := by
  refine h.exec hn fun hk => ?_
  subst hk
  cases hl with
  | hset _ _ | expire _ | del _ _ => exact absurd rfl (hno _)
  | health fields => exact absurd rfl (hh _)
  | expireOther _ hs =>
    refine .inr (.inr ⟨_, rfl, Int.lt_of_lt_of_le cfg.ttlSecs_pos hs, Int.le_trans ht ?_⟩)
    exact Int.add_le_add_left (Int.mul_le_mul_of_nonneg_right hs (by decide)) _
  | sadd _ _ => exact .inl ⟨_, rfl⟩
  | srem ha hlf _ =>
    refine .inr (.inl ⟨_, rfl, fun hm => ?_⟩)
    cases mem_singleton.1 hm
    exact hst (ha.unique hat ▸ hlf)

namespace Mark
variable {c : GoStr} {info : ConnOwnership} {m : Mark} {s : State π}

theorem Until.legal {p q : π} {t : Time} {cmd : Cmd GoStr} (h : m.Until cfg c info s.db t)
    (hl : Legal cfg s q cmd) (hat : At s p c) (hs : ¬Leaving s p c) (hn : s.now ≤ t)
    (ht : t ≤ s.now + cfg.ttlSecs * second) : m.Until cfg c info (s.db.exec s.now cmd) t := by
  cases m with
  | conn => exact hashUntil_legal h hl hat hs hn ht
  | tenant =>
    obtain ⟨hno, hh⟩ := @key_ne π cfg c info .tenant (by decide)
    exact memberUntil_legal h hl hno hh hat hs hn ht
  | apiKey =>
    obtain ⟨hno, hh⟩ := @key_ne π cfg c info .apiKey (by decide)
    exact memberUntil_legal h hl hno hh hat hs hn ht

theorem until_of_writes (hi : Inv cfg s) {cmd : Cmd GoStr} (h : m.Writes cfg c info cmd) :
    m.Until cfg c info (s.db.exec s.now cmd) s.now := by
  cases m with
  | conn =>
    obtain ⟨fields, hne, rfl⟩ := h
    exact hashUntil_hset (hi.hashes c) hne
  | tenant =>
    obtain ⟨hno, hh⟩ := @key_ne π cfg c info .tenant (by decide)
    cases h
    exact memberUntil_sadd (hi.sets _ hno fun p => hh _)
  | apiKey =>
    obtain ⟨hno, hh⟩ := @key_ne π cfg c info .apiKey (by decide)
    cases h
    exact memberUntil_sadd (hi.sets _ hno fun p => hh _)

theorem Until.renew {now : Time} (h : m.Until cfg c info db now) (hs : cfg.ttlSecs ≤ seconds) :
    m.Until cfg c info (db.exec now (.expire (m.key cfg c info) seconds)) (now + cfg.ttlSecs * second) := by
  have hp : 0 < seconds := Int.lt_of_lt_of_le cfg.ttlSecs_pos hs
  have hle : now + cfg.ttlSecs * second ≤ now + seconds * second :=
    Int.add_le_add_left (Int.mul_le_mul_of_nonneg_right hs (by decide)) _
  refine Until.mono ?_ hle
  cases m with
  | conn => exact HashUntil.expire h hp
  | tenant | apiKey => exact MemberUntil.expire h hp

theorem Until.of_alive {now t : Time} (h : m.Until cfg c info db now)
    (ha : ∀ e ∈ db.get now (m.key cfg c info), e.alive t = true) : m.Until cfg c info db t := by
  cases m with
  | conn => exact HashUntil.of_alive h ha
  | tenant | apiKey => exact MemberUntil.of_alive h ha

end Mark

/-! ## Steps as one pod sees them -/

def Writer.horizon (cfg : RegistryConfig π) (w : Writer) (now : Time) : Time := max (w.lastBeat + cfg.ttlSecs * second) now

theorem now_le_horizon (w : Writer) (now : Time) : now ≤ w.horizon cfg now := le_max_right _ _

theorem horizon_le {now : Time} (h : w.lastBeat ≤ now) : w.horizon cfg now ≤ now + cfg.ttlSecs * second := by
  have hp : 0 ≤ cfg.ttlSecs * second := Int.mul_nonneg (Int.le_of_lt cfg.ttlSecs_pos) (by decide)
  exact max_le (Int.add_le_add_right h _) (Int.le_add_of_nonneg_right hp)

inductive Seen (cfg : RegistryConfig π) (p : π) (s s' : State π) (a : Act π) : Prop
  | tick {now : Time} (ha : a = .tick now) (hnow : s.now ≤ now) (hs : s' = { s with now := now })
  | quiet (hphase : (s'.writers p).phase = (s.writers p).phase) (hbatch : (s'.writers p).batch = (s.writers p).batch)
      (howned : (s'.writers p).owned = (s.writers p).owned) (hbeat : (s'.writers p).lastBeat = (s.writers p).lastBeat)
      (hdb : s'.db = s.db) (hnow : s'.now = s.now)
  | own (hl : Local cfg p s.now (s.writers p) (s'.writers p)) (hdb : s'.db = s.db) (hnow : s'.now = s.now)
  | other {q : π} {cmd : Cmd GoStr} (hne : q ≠ p) (hl : Legal cfg s q cmd) (hw : s'.writers p = s.writers p)
      (hdb : s'.db = s.db.exec s.now cmd) (hnow : s'.now = s.now)
  | exec {outcome : Outcome} {job : Job} {cmd : Cmd GoStr} {cmds : List (Cmd GoStr)} {failed : Bool}
      (hphase : (s.writers p).phase = .pipeline job (cmd :: cmds) failed)
      (hw : s'.writers p = { s.writers p with phase := .pipeline job cmds (failed || outcome != .ok) })
      (hdb : s'.db = if outcome = .lost then s.db else s.db.exec s.now cmd) (hnow : s'.now = s.now)
  | finish {job : Job} {failed : Bool} (hphase : (s.writers p).phase = .pipeline job [] failed)
      (hw : s'.writers p = (s.writers p).finish job failed) (hdb : s'.db = s.db) (hnow : s'.now = s.now)
  | stop (hw : s'.writers p = { s.writers p with phase := .stopped }) (hcancel : (s.writers p).cancelled = true)

theorem seen_elsewhere [DecidableEq π] {s s' : State π} {p : π} (hne : p ≠ q) (hw : s'.writers = Function.update s.writers q w)
    (hdb : s'.db = s.db) (hn : s'.now = s.now) : Seen cfg p s s' a := by
  have hs : s'.writers p = s.writers p := by rw [hw, update_of_ne hne]
  exact .quiet (by rw [hs]) (by rw [hs]) (by rw [hs]) (by rw [hs]) hdb hn

theorem seen_push [DecidableEq π] {s s' : State π} (q : π) (ev : RegistryEvent)
    (hw : s'.writers = Function.update s.writers q ((s.writers q).push cfg ev)) (hdb : s'.db = s.db) (hn : s'.now = s.now)
    (p : π) : Seen cfg p s s' a := by
  rcases eq_or_ne p q with rfl | hne
  · have hp : s'.writers p = (s.writers p).push cfg ev := by rw [hw, update_self]
    refine .quiet ?_ ?_ ?_ ?_ hdb hn
    · rw [hp, push_phase]
    · rw [hp, push_batch]
    · rw [hp, push_owned]
    · rw [hp, push_lastBeat]
  · exact seen_elsewhere hne hw hdb hn

theorem seen_of_effect [DecidableEq π] {s s' : State π} (hi : Inv cfg s) (he : Effect cfg s a s') (p : π) :
    Seen cfg p s s' a := by
  cases he with
  | tick hn => exact .tick rfl hn rfl
  | @connect q ev hnw =>
    refine seen_push q (connectEvent cfg q ev) ?_ ?_ ?_ p <;> rfl
  | @disconnect connID conn ho hcl =>
    refine seen_push conn.pod (disconnectEvent connID conn.info) ?_ ?_ ?_ p <;> rfl
  | @subscribe _ q ev hcn hd =>
    refine seen_push q ev ?_ ?_ ?_ p <;> rfl
  | writer hw =>
    rename_i q w
    rcases eq_or_ne p q with rfl | hne
    · refine .own ?_ rfl rfl
      simpa [State.setWriter] using hw
    · exact seen_elsewhere hne rfl rfl rfl
  | @exec q outcome job cmd cmds failed hp =>
    rcases eq_or_ne p q with rfl | hne
    · exact .exec hp (update_self ..) rfl rfl
    · by_cases hl : outcome = .lost
      · exact seen_elsewhere hne rfl (if_pos hl) rfl
      · refine .other hne.symm ((hi.writers q).legal cmd ?_) (update_of_ne hne ..) (if_neg hl) rfl
        simp [Writer.cmds, hp]
  | @finish q job failed hp =>
    rcases eq_or_ne p q with rfl | hne
    · exact .finish hp (update_self ..) rfl rfl
    · exact seen_elsewhere hne rfl rfl rfl
  | @stop q hp hc =>
    rcases eq_or_ne p q with rfl | hne
    · exact .stop (update_self ..) hc
    · exact seen_elsewhere hne rfl rfl rfl

/-! ## The condition on the pod -/

def renewed (cmds : List (Cmd GoStr)) : List GoStr :=
  cmds.filterMap fun
    | .expire key _ => some key
    | _ => none

/-- The clock does not run further than a time to live past the beginning of the last heartbeat that succeeded, nor past the end
of a key that the pipeline is about to renew. -/
def Beats (cfg : RegistryConfig π) (p : π) (s : State π) : Act π → Prop
  | .tick now => now ≤ (s.writers p).lastBeat + cfg.ttlSecs * second ∧
      ∀ key ∈ renewed (s.writers p).cmds, ∀ e ∈ s.db.get s.now key, e.alive now = true
  | _ => True

instance (p : π) (s : State π) (a : Act π) : Decidable (Beats cfg p s a) :=
  match a with
  | .tick _ => inferInstanceAs (Decidable (_ ∧ ∀ key ∈ _, ∀ e ∈ _, _))
  | .connect _ _ | .disconnect _ | .subscribe _ _ _ _ _ | .receive _ | .flushTick _ | .heartbeatTick _ | .heartbeat _ _ _
  | .exec _ _ | .finish _ | .restart _ | .cancel _ | .shutdown _ | .drain _ | .drainTimeout _ | .sweep _ _ | .stop _ =>
    isTrue trivial

theorem mem_renewed {key : GoStr} (h : .expire key seconds ∈ cmds) : key ∈ renewed cmds := List.mem_filterMap.2 ⟨_, h, rfl⟩

theorem horizon_tick {now now' : Time} (h : now' ≤ w.lastBeat + cfg.ttlSecs * second) :
    w.horizon cfg now' ≤ w.horizon cfg now := by
  unfold Writer.horizon
  exact max_le (le_max_left _ _) (Int.le_trans h (le_max_left _ _))

/-! ## A connection that is registered -/

/-- The writer owns the connection and its marks last; in a heartbeat that has not failed, each of them was renewed or
is yet to be. -/
structure Registered (cfg : RegistryConfig π) (p : π) (c : GoStr) (info : ConnOwnership) (s : State π) : Prop where
  owned : Assoc.get (s.writers p).owned c = some info
  marks : ∀ m : Mark, m.Applies info → m.Until cfg c info s.db ((s.writers p).horizon cfg s.now)
  beat : ∀ began cmds, (s.writers p).phase = .pipeline (.heartbeat began) cmds false → ∀ m : Mark, m.Applies info →
    m.Until cfg c info s.db (max (began + cfg.ttlSecs * second) s.now) ∨
      ∃ seconds, cfg.ttlSecs ≤ seconds ∧ .expire (m.key cfg c info) seconds ∈ cmds

section Registered
variable {p : π} {c : GoStr} {info : ConnOwnership} {s s' : State π}

theorem Registered.of_same (h : Registered cfg p c info s) (ho : Assoc.get (s'.writers p).owned c = some info)
    (hb : (s'.writers p).lastBeat = (s.writers p).lastBeat) (hdb : s'.db = s.db) (hn : s'.now = s.now)
    (hph : ∀ began cmds, (s'.writers p).phase ≠ .pipeline (.heartbeat began) cmds false) : Registered cfg p c info s' where
  owned := ho
  marks := by
    intro m hm
    rw [hdb, hn, Writer.horizon, hb]
    exact h.marks m hm
  beat := fun began cmds hp => absurd hp (hph began cmds)

theorem renewal_mem_heartbeatCmds {order : Owned} {drops : Nat} {adminHealthy : Bool} {now : Time} (hmm : (c, info) ∈ order)
    (hm : m.Applies info) : ∃ seconds, cfg.ttlSecs ≤ seconds ∧
      .expire (m.key cfg c info) seconds ∈ heartbeatCmds cfg p now order drops adminHealthy := by
  cases m with
  | conn => exact ⟨_, Int.le_refl _, mem_append_left _ (expire_conn_mem_renewals hmm)⟩
  | tenant =>
    exact ⟨_, cfg.ttlSecs_le_idxTTL, mem_append_left _ (expire_tenant_mem_renewals hmm not_mem_nil)⟩
  | apiKey =>
    exact ⟨_, cfg.ttlSecs_le_idxTTL, mem_append_left _ (expire_apiKey_mem_renewals hmm (hm rfl) not_mem_nil)⟩

theorem get_flushBatch_of_stay {batch : List RegistryEvent} {owned : Owned} (hev : EventsOk s p batch)
    (ho : s.opened c = some ⟨p, info⟩) (hs : ¬Leaving s p c)
    (h : Assoc.get owned c = some info ∨ ∃ ev ∈ batch, ev.connects c) :
    Assoc.get (flushBatch cfg owned batch).1 c = some info := by
  refine get_flushBatch_of_connect (fun ev hm hcn => ?_) (fun ev hm hd => ?_) h
  · have hi := hev.connects ev hm hcn.1
    rw [hcn.2, ho] at hi
    cases hi
    rfl
  · have hc := (hev.disconnects ev hm hd.1).2
    exact hs (.inl (hd.2 ▸ hc))

variable (h : Registered cfg p c info s)
include h

section
variable (hok : WriterOk cfg s p (s.writers p))
include hok

theorem Registered.local (ho : s.opened c = some ⟨p, info⟩) (hst : ¬Leaving s p c) (hcn : (s'.writers p).cancelled ≠ true)
    (hl : Local cfg p s.now (s.writers p) (s'.writers p)) (hdb : s'.db = s.db) (hn : s'.now = s.now) :
    Registered cfg p c info s' := by
  have hnt : (s.writers p).phase.stopping = false := by
    cases hs : (s.writers p).phase.stopping with
    | false => rfl
    | true => exact absurd (.inr (hok.shut hs)) hst
  generalize hw : s'.writers p = w' at hl hcn
  cases hl with
  | receive hph hq => exact h.of_same (by rw [hw]; exact h.owned) (by rw [hw]) hdb hn (by simp [hw, hph])
  | flush hph hj =>
    have hev : EventsOk s p (s.writers p).batch := by
      have hpn := hok.events
      rw [Writer.pending, hph] at hpn
      exact hpn.sublist (sublist_append_left _ _)
    refine h.of_same ?_ (by rw [hw]; rfl) hdb hn ?_
    · rw [hw]
      exact get_flushBatch_of_stay hev ho hst (.inl h.owned)
    · rcases hj with rfl | rfl <;> simp [hw, Writer.flush]
  | idle =>
    refine ⟨by rw [hw]; exact h.owned, ?_, ?_⟩
    · rw [hw, hdb, hn]
      exact h.marks
    · rw [hw, hdb, hn]
      exact h.beat
  | beat hph _ | restart hph => exact h.of_same (by rw [hw]; exact h.owned) (by rw [hw]) hdb hn (by simp [hw])
  | heartbeat hph hpr =>
    have hmm : (c, info) ∈ (s.writers p).owned := Assoc.mem_of_get h.owned
    refine ⟨by rw [hw]; exact h.owned, ?_, fun began cmds hp m hm => .inr ?_⟩
    · rw [hw, hdb, hn]
      exact h.marks
    · rw [hw] at hp
      cases hp
      exact renewal_mem_heartbeatCmds (hpr.symm.subset hmm) hm
  | cancel => exact absurd rfl hcn
  | shutdown _ hc => exact absurd hc hcn
  | drain hph _ | drainEmpty hph | drainFlush hph | sweep hph _ | sweepEmpty hph _ =>
    rw [hph] at hnt
    cases hnt

theorem Registered.exec (hat : At s p c)
    (hst : ¬Leaving s p c) {outcome : Outcome} (hph : (s.writers p).phase = .pipeline job (cmd :: cmds) failed)
    (hw : s'.writers p = { s.writers p with phase := .pipeline job cmds (failed || outcome != .ok) })
    (hdb : s'.db = if outcome = .lost then s.db else s.db.exec s.now cmd) (hn : s'.now = s.now) :
    Registered cfg p c info s' := by
  have hl : Legal cfg s p cmd := hok.legal cmd (by simp [Writer.cmds, hph])
  have hk : ∀ {m : Mark} {t : Time}, m.Until cfg c info s.db t → s.now ≤ t → t ≤ s.now + cfg.ttlSecs * second →
      m.Until cfg c info s'.db t := by
    intro m t hu hle hge
    rw [hdb]
    split
    · exact hu
    · exact hu.legal hl hat hst hle hge
  refine ⟨by rw [hw]; exact h.owned, fun m hm => ?_, fun began cmds' hp m hm => ?_⟩
  · rw [hw, hn]
    exact hk (h.marks m hm) (now_le_horizon _ _) (horizon_le hok.lastBeat)
  · rw [hw] at hp
    -- nothing of the heartbeat has failed so far, so that this command was executed
    obtain ⟨rfl, rfl, hf⟩ := Phase.pipeline.inj hp
    obtain ⟨rfl, rfl⟩ : failed = false ∧ outcome = .ok := by simpa using hf
    obtain ⟨-, hb⟩ := hok.began _ _ _ hph
    have hle : max (began + cfg.ttlSecs * second) s.now ≤ s.now + cfg.ttlSecs * second :=
      horizon_le (w := { s.writers p with lastBeat := began }) hb
    rw [hn]
    rcases h.beat _ _ hph m hm with hu | ⟨seconds, hs, hmm⟩
    · exact .inl (hk hu (le_max_right _ _) hle)
    · rcases mem_cons.1 hmm with rfl | hmm
      · left
        rw [hdb, if_neg (by decide)]
        exact (((h.marks m hm).mono (now_le_horizon _ _)).renew hs).mono hle
      · exact .inr ⟨seconds, hs, hmm⟩

theorem Registered.finish (hsy : ¬Leaving s p c)
    (hp : (s.writers p).phase = .pipeline job [] failed) (hw : s'.writers p = (s.writers p).finish job failed)
    (hdb : s'.db = s.db) (hn : s'.now = s.now) : Registered cfg p c info s' := by
  have hst : (s.writers p).phase.stopping = true → Registered cfg p c info s' := fun hs =>
    absurd (.inr (hok.shut hs)) hsy
  have hf : s'.writers p = (s.writers p).fail → Registered cfg p c info s' := by
    intro hw
    refine h.of_same (by rw [hw]; exact h.owned) (by rw [hw]; rfl) hdb hn ?_
    rw [hw]
    unfold Writer.fail
    split <;> simp
  cases job with
  | flush | flushBeforeHeartbeat =>
    cases failed with
    | false => exact h.of_same (by rw [hw]; exact h.owned) (by rw [hw]; rfl) hdb hn (by simp [hw, Writer.finish])
    | true => exact hf hw
  | heartbeat began =>
    cases failed with
    | false =>
      refine ⟨by rw [hw]; exact h.owned, fun m hm => ?_, by simp [hw, Writer.finish]⟩
      rw [hw, hdb, hn]
      rcases h.beat _ _ hp m hm with hu | ⟨seconds, -, hmm⟩
      · exact hu
      · cases hmm
    | true => exact hf hw
  | finalDrainFlush | sweep => exact hst (by rw [hp]; rfl)

end

/-- **One step keeps a connection registered** while it stays and its pod heartbeats. -/
theorem Registered.effect [DecidableEq π] (hi : Inv cfg s) (ho : s.opened c = some ⟨p, info⟩)
    (hbt : Beats cfg p s a) (he : Effect cfg s a s') (hsy : ¬Leaving s' p c) : Registered cfg p c info s' := by
  have hg := he.grows
  have hst : ¬Leaving s p c := fun hl => hsy (hl.mono hg)
  have hat : At s p c := ⟨info, ho⟩
  have hok := hi.writers p
  cases seen_of_effect hi he p with
  | tick ha hn hs =>
    subst ha hs
    obtain ⟨hle, -⟩ := hbt
    refine ⟨h.owned, fun m hm => (h.marks m hm).mono (horizon_tick hle), fun began cmds hp m hm => ?_⟩
    refine (h.beat began cmds hp m hm).imp_left fun hu => hu.mono (max_le (le_max_left _ _) ?_)
    obtain ⟨hb, -⟩ := hok.began _ _ _ hp
    exact Int.le_trans (Int.le_trans hle (Int.add_le_add_right hb _)) (le_max_left _ _)
  | quiet hph _ how hbe hdb hn =>
    refine ⟨by rw [how]; exact h.owned, fun m hm => ?_, ?_⟩
    · rw [hdb, hn, Writer.horizon, hbe]
      exact h.marks m hm
    · rw [hph, hdb, hn]
      exact h.beat
  | own hl hdb hn => exact h.local hok ho hst (fun hc => hsy (.inr hc)) hl hdb hn
  | other _ hl hw hdb hn =>
    refine ⟨by rw [hw]; exact h.owned, fun m hm => ?_, fun began cmds hp m hm => ?_⟩
    · rw [hw, hdb, hn]
      exact (h.marks m hm).legal hl hat hst (now_le_horizon _ _) (horizon_le hok.lastBeat)
    · rw [hw] at hp
      rw [hdb, hn]
      refine (h.beat began cmds hp m hm).imp_left fun hu => hu.legal hl hat hst (le_max_right _ _) ?_
      obtain ⟨-, hb⟩ := hok.began _ _ _ hp
      exact horizon_le (w := { s.writers p with lastBeat := began }) hb
  | exec hph hw hdb hn => exact h.exec hok hat hst hph hw hdb hn
  | finish hph hw hdb hn => exact h.finish hok hst hph hw hdb hn
  | stop hw hcn => exact absurd (.inr hcn) hst

end Registered

/-! ## A connection that is being registered -/

inductive Staged (cfg : RegistryConfig π) (c : GoStr) (info : ConnOwnership) (db : Db GoStr) (now t : Time)
    (cmds : List (Cmd GoStr)) (m : Mark) : Prop
  | ahead {cmd : Cmd GoStr} (hw : m.Writes cfg c info cmd)
      (hsub : [cmd, .expire (m.key cfg c info) cfg.ttlSecs].Sublist cmds)
  | made (hu : m.Until cfg c info db now) (hmem : .expire (m.key cfg c info) cfg.ttlSecs ∈ cmds)
  | done (hu : m.Until cfg c info db t)

def Registering (cfg : RegistryConfig π) (p : π) (c : GoStr) (s : State π) : Prop :=
  ∀ info job cmds, s.opened c = some ⟨p, info⟩ → ¬Leaving s p c → (s.writers p).phase = .pipeline job cmds false →
    job = .flush ∨ job = .flushBeforeHeartbeat → (∃ ev ∈ (s.writers p).batch, ev.connects c) →
    Assoc.get (s.writers p).owned c = some info ∧ ∀ m : Mark, m.Applies info →
      Staged cfg c info s.db s.now ((s.writers p).horizon cfg s.now) cmds m

section Registering
variable {p : π} {c : GoStr} {info : ConnOwnership} {s s' : State π} {t : Time}

theorem connectCmds_eq (ev : RegistryEvent) : ∃ fields, fields ≠ [] ∧ connectCmds cfg ev =
    [.hset (connKey cfg.environment ev.connID) fields, .expire (connKey cfg.environment ev.connID) cfg.ttlSecs,
      .sadd (tenantIdxKey cfg.environment ev.tenantID) ev.connID, .expire (tenantIdxKey cfg.environment ev.tenantID) cfg.ttlSecs] ++
    if ev.apiKeyID ≠ [] then [.sadd (apiKeyIdxKey cfg.environment ev.tenantID ev.apiKeyID) ev.connID,
      .expire (apiKeyIdxKey cfg.environment ev.tenantID ev.apiKeyID) cfg.ttlSecs] else [] :=
  ⟨_, cons_ne_nil _ _, rfl⟩

theorem staged_of_connectCmds {now : Time} (hid : ev.connID = c)
    (hi : ev.info = info) (hs : (connectCmds cfg ev).Sublist cmds) (hm : m.Applies info) :
    Staged cfg c info db now t cmds m := by
  subst hid hi
  obtain ⟨fields, hne, heq⟩ := @connectCmds_eq π cfg ev
  rw [heq] at hs
  cases m with
  | conn =>
    refine .ahead ⟨fields, hne, rfl⟩ (List.Sublist.trans ?_ hs)
    exact .cons_cons _ (.cons_cons _ (nil_sublist _))
  | tenant =>
    refine .ahead rfl (List.Sublist.trans ?_ hs)
    exact .cons _ (.cons _ (.cons_cons _ (.cons_cons _ (nil_sublist _))))
  | apiKey =>
    refine .ahead rfl (List.Sublist.trans ?_ hs)
    have hk : ev.apiKeyID ≠ [] := hm rfl
    rw [if_pos hk]
    exact sublist_append_right _ _

theorem Staged.other (h : Staged cfg c info s.db s.now t cmds m) (hl : Legal cfg s q cmd) (hat : At s p c)
    (hs : ¬Leaving s p c) (hn : s.now ≤ t) (ht : t ≤ s.now + cfg.ttlSecs * second) :
    Staged cfg c info (s.db.exec s.now cmd) s.now t cmds m := by
  cases h with
  | ahead hw hsb => exact .ahead hw hsb
  | made hu hm => exact .made (hu.legal hl hat hs (Int.le_refl _) (Int.le_trans hn ht)) hm
  | done hu => exact .done (hu.legal hl hat hs hn ht)

theorem Staged.exec (hi : Inv cfg s) (h : Staged cfg c info s.db s.now t (cmd :: cmds) m) (hl : Legal cfg s p cmd)
    (hat : At s p c) (hs : ¬Leaving s p c) (hn : s.now ≤ t) (ht : t ≤ s.now + cfg.ttlSecs * second) :
    Staged cfg c info (s.db.exec s.now cmd) s.now t cmds m := by
  cases h with
  | @ahead first hw hsb =>
    rcases sublist_cons_iff.1 hsb with hsb | ⟨rest, heq, hr⟩
    · exact .ahead hw hsb
    · cases heq
      exact .made (Mark.until_of_writes hi hw) (hr.subset mem_cons_self)
  | made hu hm =>
    rcases mem_cons.1 hm with rfl | hm
    · exact .done ((hu.renew (Int.le_refl _)).mono ht)
    · exact .made (hu.legal hl hat hs (Int.le_refl _) (Int.le_trans hn ht)) hm
  | done hu => exact .done (hu.legal hl hat hs hn ht)

theorem Staged.tick {now now' t' : Time} (h : Staged cfg c info db now t cmds m) (hle : t' ≤ t)
    (ha : ∀ key ∈ renewed cmds, ∀ e ∈ db.get now key, e.alive now' = true) : Staged cfg c info db now' t' cmds m := by
  cases h with
  | ahead hw hs => exact .ahead hw hs
  | made hu hm => exact .made (hu.of_alive (ha _ (mem_renewed hm))) hm
  | done hu => exact .done (hu.mono hle)

def BatchOk (s : State π) (p : π) : Prop := ∀ ev ∈ (s.writers p).batch, ev.kind = .connect → s.opened ev.connID ≠ none

theorem finish_batch (h : ev ∈ (w.finish job failed).batch) : ev ∈ w.batch := by
  cases job <;> cases failed <;> first | exact h | cases h

theorem BatchOk.effect [DecidableEq π] (h : BatchOk s p) (hi : Inv cfg s) (he : Effect cfg s a s') : BatchOk s' p := by
  have hg : ∀ connID, s.opened connID ≠ none → s'.opened connID ≠ none := by
    intro connID hne
    obtain ⟨conn, ho⟩ := ne_none_iff_exists'.1 hne
    simp [he.grows.opened connID conn ho]
  -- the batch does not get longer, except by an event of the queue
  have hsb : (∀ ev ∈ (s'.writers p).batch, ev ∈ (s.writers p).batch) → BatchOk s' p := fun hsb ev hev hk =>
    hg _ (h ev (hsb ev hev) hk)
  cases seen_of_effect hi he p with
  | tick _ _ hs =>
    subst hs
    exact h
  | quiet _ hb _ _ _ _ => exact hsb (by simp [hb])
  | own hl _ _ =>
    have hev := (hi.writers p).events
    generalize hw : s'.writers p = w' at hl
    cases hl with
    | receive hp hq =>
      intro ev hm hk
      refine hg _ ?_
      rw [Writer.pending, hp, hq] at hev
      rw [hw] at hm
      rcases mem_append.1 hm with hm | hm
      · exact h ev hm hk
      · have ho := hev.connects ev (mem_append_right _ (mem_singleton.1 hm ▸ mem_cons_self)) hk
        simp [ho]
    | flush _ _ | idle | beat _ _ | heartbeat _ _ | restart _ | cancel | drain _ _ | drainEmpty _ | drainFlush _ | sweep _ _
    | sweepEmpty _ _ =>
      refine hsb ?_
      rw [hw]
      exact fun ev hm => hm
    | shutdown _ _ => exact hsb (by simp [hw])
  | other _ _ hw _ _ | exec _ hw _ _ | stop hw _ => exact hsb (by simp [hw])
  | finish _ hw _ _ =>
    refine hsb fun ev hm => ?_
    rw [hw] at hm
    exact finish_batch hm

theorem batchOk_run [DecidableEq π] {now : Time} {as : List (Act π)} (h : run (step cfg) (init now) as = some s) (p : π) :
    BatchOk s p := by
  have ha : Inv cfg s ∧ BatchOk s p := by
    refine run_invariant (fun s => Inv cfg s ∧ BatchOk s p) ?_ ⟨inv_init now, fun ev hev => (by cases hev)⟩ h
    rintro s a s' ⟨hi, hb⟩ hs
    have he := effect_of_step hs
    exact ⟨hi.effect he, hb.effect hi he⟩
  exact ha.2

theorem finish_phase_ne (w : Writer) (job job' : Job) (failed : Bool) (cmds : List (Cmd GoStr)) :
    (w.finish job failed).phase ≠ .pipeline job' cmds false := by
  cases job <;> cases failed <;> simp [Writer.finish, Writer.fail] <;> split <;> simp

theorem Registering.effect [DecidableEq π] (h : Registering cfg p c s) (hi : Inv cfg s) (hb : BatchOk s p)
    (hbt : Beats cfg p s a) (he : Effect cfg s a s') : Registering cfg p c s' := by
  intro info job cmds hon hsy hp hj hcn
  have hg := he.grows
  have hst : ¬Leaving s p c := fun hl => hsy (hl.mono hg)
  have hok := hi.writers p
  have hop : (∃ ev ∈ (s.writers p).batch, ev.connects c) → s.opened c = some ⟨p, info⟩ := by
    rintro ⟨ev, hev, hk, rfl⟩
    obtain ⟨conn, hsm⟩ := ne_none_iff_exists'.1 (hb ev hev hk)
    exact hsm.trans ((hg.opened _ _ hsm).symm.trans hon)
  cases seen_of_effect hi he p with
  | tick ha hn hs =>
    subst ha hs
    obtain ⟨hle, hal⟩ := hbt
    rw [Writer.cmds, hp] at hal
    obtain ⟨hown, hsg⟩ := h info job cmds hon hsy hp hj hcn
    exact ⟨hown, fun m hm => (hsg m hm).tick (horizon_tick hle) hal⟩
  | quiet hph hbc how hbe hdb hn =>
    rw [hph] at hp
    rw [hbc] at hcn
    rw [how, hdb, hn, Writer.horizon, hbe]
    exact h info job cmds (hop hcn) hst hp hj hcn
  | own hl hdb hn =>
    generalize hw : s'.writers p = w' at hl hp hcn
    rw [hdb, hn]
    cases hl with
    | flush hr _ =>
      obtain ⟨rfl, rfl, -⟩ := Phase.pipeline.inj hp
      have hev : EventsOk s p (s.writers p).batch := by
        have hpn := hok.events
        rw [Writer.pending, hr] at hpn
        exact hpn.sublist (sublist_append_left _ _)
      have ho := hop hcn
      refine ⟨get_flushBatch_of_stay hev ho hst (.inr hcn), fun m hm => ?_⟩
      obtain ⟨ev, hmm, hk, hid⟩ := hcn
      have hin : ev.info = info := by
        have hsa := hev.connects ev hmm hk
        rw [hid, ho] at hsa
        cases hsa
        rfl
      exact staged_of_connectCmds hid hin (connectCmds_sublist hmm hk) hm
    | idle => exact h info job cmds (hop hcn) hst hp hj hcn
    | cancel => exact absurd (.inr (by rw [hw])) hsy
    | receive hr _ => simp [hr] at hp
    | heartbeat _ _ | drainFlush _ | sweep _ _ =>
      obtain ⟨rfl, -, -⟩ := Phase.pipeline.inj hp
      simp at hj
    | beat _ _ | restart _ | drain _ _ | drainEmpty _ | sweepEmpty _ _ => cases hp
    | shutdown _ hc => exact absurd (.inr hc) hst
  | other _ hl hw hdb hn =>
    rw [hw] at hp hcn ⊢
    rw [hdb, hn]
    have ho := hop hcn
    obtain ⟨hown, hsg⟩ := h info job cmds ho hst hp hj hcn
    exact ⟨hown, fun m hm => (hsg m hm).other hl ⟨info, ho⟩ hst (now_le_horizon _ _) (horizon_le hok.lastBeat)⟩
  | @exec outcome job' cmd cmds' failed hph hw hdb hn =>
    rw [hw] at hp hcn ⊢
    -- nothing of the flush has failed so far, so that this command was executed
    obtain ⟨rfl, rfl, hf⟩ := Phase.pipeline.inj hp
    obtain ⟨rfl, rfl⟩ : failed = false ∧ outcome = .ok := by simpa using hf
    rw [hdb, hn, if_neg (by decide)]
    have ho := hop hcn
    have hlg : Legal cfg s p cmd := hok.legal cmd (by simp [Writer.cmds, hph])
    obtain ⟨hown, hsg⟩ := h info _ _ ho hst hph hj hcn
    refine ⟨hown, fun m hm => ?_⟩
    exact (hsg m hm).exec hi hlg ⟨info, ho⟩ hst (now_le_horizon _ _) (horizon_le hok.lastBeat)
  | finish _ hw _ _ =>
    rw [hw] at hp
    exact absurd hp (finish_phase_ne _ _ _ _ _)
  | stop hw _ =>
    rw [hw] at hp
    cases hp

end Registering

/-! ## Whole runs -/

/-- The pipeline with the `connect` has returned, and no command of it failed. -/
def Flushed (s : State π) (p : π) (c : GoStr) : Prop :=
  ((s.writers p).phase = .pipeline .flush [] false ∨ (s.writers p).phase = .pipeline .flushBeforeHeartbeat [] false) ∧
    ∃ ev ∈ (s.writers p).batch, ev.connects c

instance (s : State π) (p : π) (c : GoStr) : Decidable (Flushed s p c) := inferInstanceAs (Decidable (_ ∧ ∃ ev ∈ _, _))
instance (s : State π) (p : π) (c : GoStr) : Decidable (Leaving s p c) := inferInstanceAs (Decidable (_ ∨ _))

/-- What a reader finds of a connection that is registered. -/
def Listed (cfg : RegistryConfig π) (s : State π) (c : GoStr) (info : ConnOwnership) : Prop :=
  s.db.hgetall s.now (connKey cfg.environment c) ≠ [] ∧
  c ∈ s.db.smembers s.now (tenantIdxKey cfg.environment info.tenantID) ∧
  (info.apiKeyID ≠ [] → c ∈ s.db.smembers s.now (apiKeyIdxKey cfg.environment info.tenantID info.apiKeyID))

section Runs
variable {now : Time} {as bs : List (Act π)} {s t : State π} {p : π} {c : GoStr} {info : ConnOwnership}

theorem Registering.registered (h : Registering cfg p c s) (ho : s.opened c = some ⟨p, info⟩) (hst : ¬Leaving s p c)
    (hf : Flushed s p c) : Registered cfg p c info s := by
  obtain ⟨hph, hc⟩ := hf
  obtain ⟨job, hj, hph⟩ : ∃ job, (job = .flush ∨ job = .flushBeforeHeartbeat) ∧
      (s.writers p).phase = .pipeline job [] false := by
    rcases hph with hph | hph
    · exact ⟨_, .inl rfl, hph⟩
    · exact ⟨_, .inr rfl, hph⟩
  obtain ⟨how, hs⟩ := h info job [] ho hst hph hj hc
  refine ⟨how, fun m hm => ?_, fun began cmds hp => ?_⟩
  · cases hs m hm with
    | ahead _ hsb => cases hsb
    | made _ hmm => cases hmm
    | done hu => exact hu
  · rw [hph] at hp
    obtain ⟨rfl, -, -⟩ := Phase.pipeline.inj hp
    simp at hj

theorem Registered.listed (h : Registered cfg p c info s) : Listed cfg s c info := by
  have hn := @now_le_horizon π cfg (s.writers p) s.now
  refine ⟨?_, ?_, fun hk => ?_⟩
  · exact HashUntil.hgetall_ne_nil (h.marks .conn (by simp [Mark.Applies])) hn
  · exact MemberUntil.mem_smembers (h.marks .tenant (by simp [Mark.Applies])) hn
  · exact MemberUntil.mem_smembers (h.marks .apiKey fun _ => hk) hn

theorem registering_run [DecidableEq π] (hs : run (step cfg) (init now) as = some s) (hn : s.opened c = none)
    (hbt : Along (step cfg) (Beats cfg p) s bs) (ht : run (step cfg) s bs = some t) : Registering cfg p c t := by
  have ha : Inv cfg t ∧ BatchOk t p ∧ Registering cfg p c t := by
    refine run_invariant_along (fun s => Inv cfg s ∧ BatchOk s p ∧ Registering cfg p c s) ?_
      ⟨inv_run hs, batchOk_run hs p, fun info job cmds ho => ?_⟩ hbt ht
    · rintro s a s' ⟨hi, hb, h⟩ hok hs
      have he := effect_of_step hs
      exact ⟨hi.effect he, hb.effect hi he, h.effect hi hb hok he⟩
    · rw [hn] at ho
      cases ho
  exact ha.2.2

theorem registered_run [DecidableEq π] (hi : Inv cfg s) (h : Registered cfg p c info s) (ho : s.opened c = some ⟨p, info⟩)
    (hb : Along (step cfg) (Beats cfg p) s bs) (ht : run (step cfg) s bs = some t) (hst : ¬Leaving t p c) :
    Registered cfg p c info t := by
  have ha : Inv cfg t ∧ t.opened c = some ⟨p, info⟩ ∧ (¬Leaving t p c → Registered cfg p c info t) := by
    refine run_invariant_along (fun s => Inv cfg s ∧ s.opened c = some ⟨p, info⟩ ∧
      (¬Leaving s p c → Registered cfg p c info s)) ?_ ⟨hi, ho, fun _ => h⟩ hb ht
    rintro s a s' ⟨hi, ho, h⟩ hok hs
    have he := effect_of_step hs
    refine ⟨hi.effect he, he.grows.opened _ _ ho, fun hst => ?_⟩
    exact (h fun hl => hst (hl.mono he.grows)).effect hi ho hok he hst
  exact ha.2.2 hst

end Runs

/-- **Entries follow their connections.** If the steps are `Attended`, the entry of a disconnected connection is gone a time to
live after the writer is done with it. A connection whose `connect` was flushed is found as long as its pod heartbeats. -/
theorem entries_follow_connections [DecidableEq π] {now : Time} {as bs : List (Act π)} {s t : State π}
    (hs : run (step cfg) (init now) as = some s) (ht : run (step cfg) s bs = some t) :
    (Along (step cfg) (Attended cfg) (init now) as → ∀ c conn, s.opened c = some conn → s.closed c = true →
      (s.writers conn.pod).Attends cfg c ∨ (t.db (connKey cfg.environment c) = s.db (connKey cfg.environment c) ∧
          (s.now + cfg.ttl < t.now → t.db.get t.now (connKey cfg.environment c) = none))) ∧
    ∀ p c info as₀ as₁ s₀, as = as₀ ++ as₁ → run (step cfg) (init now) as₀ = some s₀ → s₀.opened c = none →
      Along (step cfg) (Beats cfg p) s₀ (as₁ ++ bs) → s.opened c = some ⟨p, info⟩ → Flushed s p c → ¬Leaving t p c →
      Listed cfg t c info := by
  refine ⟨fun hok c conn hopen hclosed => ?_, ?_⟩
  · by_cases hatt : (s.writers conn.pod).Attends cfg c
    · exact .inl hatt
    · exact .inr (gone_run hs ht hok hopen hclosed hatt)
  · intro p c info as₀ as₁ s₀ has hs₀ hnew hbeats hopen hf hstay
    have hs₁ : run (step cfg) s₀ as₁ = some s := by
      rw [has, run_append, hs₀] at hs
      exact hs
    obtain ⟨hbeats₁, hbeats₂⟩ := along_append.1 hbeats
    have hi := inv_run hs
    have hstay₀ : ¬Leaving s p c := fun hl => hstay (hl.mono (grows_run ht))
    have hreg := (registering_run hs₀ hnew hbeats₁ hs₁).registered hopen hstay₀ hf
    exact (registered_run hi hreg hopen (hbeats₂ s hs₁) ht hstay).listed

def demoConfig (buffer : Nat) : RegistryConfig Unit :=
  ⟨str "dev", fun _ => str "p", 16 * second, 5 * second, 0, buffer, fun _ => [], by decide, by decide⟩

def demoConnect (connID : GoStr) : Act Unit := .connect () { kind := .connect, connID := connID, tenantID := str "t" }

def demoFlush (connID : GoStr) : List (Act Unit) :=
  [demoConnect connID, .receive (), .flushTick (), .exec () .ok, .exec () .ok, .exec () .ok, .exec () .ok]

def demoBeat (connID : GoStr) : List (Act Unit) :=
  [.finish (), .tick (5 * second), .heartbeatTick (), .heartbeat () [(connID, ⟨str "t", []⟩)] true, .exec () .ok, .exec () .ok,
    .exec () .ok, .exec () .ok, .finish (), .tick (20 * second)]

def demoLostDel : List (Act Unit) :=
  demoFlush (str "a") ++ [.finish (), .disconnect (str "a"), .receive (), .flushTick (), .exec () .lost, .exec () .ok,
    .finish (), .restart ()]

theorem entries_follow_connections_demo : ∃ s t : State Unit,
    run (step (demoConfig 4)) (init 0) (demoLostDel ++ demoFlush (str "b")) = some s ∧
    run (step (demoConfig 4)) s (demoBeat (str "b")) = some t ∧
    s.db.get s.now (connKey (str "dev") (str "a")) ≠ none ∧ t.db.get t.now (connKey (str "dev") (str "a")) = none ∧
    Listed (demoConfig 4) t (str "b") ⟨str "t", []⟩ := by
  have hatt : Along (step (demoConfig 4)) (Attended (demoConfig 4)) (init 0) (demoLostDel ++ demoFlush (str "b")) :=
    of_decide_eq_true (by decide +kernel)
  have hval : ((run (step (demoConfig 4)) (init 0) demoLostDel).bind fun s₀ =>
      (run (step (demoConfig 4)) s₀ (demoFlush (str "b"))).bind fun s =>
      (run (step (demoConfig 4)) s (demoBeat (str "b"))).map fun t =>
        (decide ((s₀.opened (str "b")).isNone ∧
            Along (step (demoConfig 4)) (Beats (demoConfig 4) ()) s₀ (demoFlush (str "b") ++ demoBeat (str "b"))),
          decide ((s.opened (str "a")).isSome ∧ s.closed (str "a") = true ∧
            ¬(s.writers ()).Attends (demoConfig 4) (str "a") ∧ s.db.get s.now (connKey (str "dev") (str "a")) ≠ none),
          (s.opened (str "b")).map Conn.info,
          decide (Flushed s () (str "b") ∧ ¬Leaving t () (str "b") ∧ s.now + 16 * second < t.now))) =
      some (true, true, some ⟨str "t", []⟩, true) := by decide +kernel
  obtain ⟨s₀, hs₀, hval⟩ := bind_eq_some_iff.1 hval
  obtain ⟨s, hs, hval⟩ := bind_eq_some_iff.1 hval
  obtain ⟨t, ht, hval⟩ := map_eq_some_iff.1 hval
  simp only [Prod.mk.injEq, decide_eq_true_eq] at hval
  obtain ⟨⟨hnew, hbeats⟩, ⟨hopen, hclosed, hnot, hthere⟩, hinfo, hflushed, hstay, hlate⟩ := hval
  have hrun : run (step (demoConfig 4)) (init 0) (demoLostDel ++ demoFlush (str "b")) = some s := by
    rw [run_append, hs₀]
    exact hs
  obtain ⟨hgone, hlisted⟩ := entries_follow_connections hrun ht
  obtain ⟨conn, hconn⟩ := isSome_iff_exists.1 hopen
  obtain ⟨conn', hconn', hinfo'⟩ := map_eq_some_iff.1 hinfo
  refine ⟨s, t, hrun, ht, hthere, ?_, ?_⟩
  · exact ((hgone hatt _ conn hconn hclosed).resolve_left hnot).2 hlate
  · refine hlisted () _ _ demoLostDel (demoFlush (str "b")) s₀ rfl hs₀ (isNone_iff_eq_none.1 hnew) hbeats ?_ hflushed hstay
    rw [hconn', ← hinfo']

/-- **Bug**: a `disconnect` that finds the queue full is dropped (`writer.go:121`), and every heartbeat renews the hash: at 20 s
it is there, with a time to live of 16 s. -/
theorem dropped_disconnect_renewed : ∃ s t : State Unit,
    run (step (demoConfig 1)) (init 0) (demoFlush (str "a") ++ [.subscribe () false (str "a") [] false,
      .disconnect (str "a")]) = some s ∧
    run (step (demoConfig 1)) s (demoBeat (str "a")) = some t ∧
    s.closed (str "a") = true ∧ ¬(s.writers ()).Attends (demoConfig 1) (str "a") ∧
    s.now + (demoConfig 1).ttl < t.now ∧ t.db.get t.now (connKey (str "dev") (str "a")) ≠ none :=
  exists_two_runs (by decide +kernel)

end Sukko.Registry
