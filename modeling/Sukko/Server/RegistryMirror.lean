import Sukko.Server.RegistryPipelines
/-
# The registry mirrors what the writer owns

Keys do not expire (`put`), and the writer starts on an empty registry. A shutdown flushes what the drain collected and sweeps;
the batch of `runOnce` and the rest of the queue are let go of.
-/

namespace Sukko.Registry
open Keyspace List Function
variable {π : Type} (cfg : RegistryConfig π)

abbrev Values := GoStr → Option (Value GoStr)

def put (v : Values) (cmd : Cmd GoStr) : Values :=
  update v cmd.key ((cmd.apply 0 ((v cmd.key).map (⟨·, none⟩))).map Entry.value)

def members (v : Values) (key : GoStr) : List GoStr :=
  match v key with
  | some (.set ms) => ms
  | _ => []

structure Mirror where
  owned : Owned
  store : Values
  gauge : Int

def Mirror.initial : Mirror := ⟨[], fun _ => none, 0⟩

def gaugeEvent (owned : Owned) (ev : RegistryEvent) : Int :=
  match ev.kind with
  | .connect => 1
  | .disconnect => if (Assoc.get owned ev.connID).isSome then -1 else 0
  | .subscribe | .unsubscribe => 0

def gaugeBatch (owned : Owned) : List RegistryEvent → Int
  | [] => 0
  | ev :: batch => gaugeEvent owned ev + gaugeBatch (flushEvent cfg owned ev).1 batch

/-- Models `Writer.flushBatch` (`server/registry/writer.go:308`) with its pipeline, every command of it succeeding. -/
def Mirror.flush (m : Mirror) (batch : List RegistryEvent) : Mirror where
  owned := (flushBatch cfg m.owned batch).1
  store := (flushBatch cfg m.owned batch).2.foldl put m.store
  gauge := m.gauge + gaugeBatch cfg m.owned batch

def Mirror.sweep (m : Mirror) (order : Owned) : Mirror where
  owned := []
  store := (sweepCmds cfg order).foldl put m.store
  gauge := m.gauge - order.length

def idxKeys (info : ConnOwnership) : List GoStr :=
  tenantIdxKey cfg.environment info.tenantID ::
    if info.apiKeyID ≠ [] then [apiKeyIdxKey cfg.environment info.tenantID info.apiKeyID] else []

def lastSnapshot (past : List RegistryEvent) (c : GoStr) : Option RegistryEvent :=
  past.reverse.find? fun ev => ev.connID = c ∧ ev.kind ≠ .disconnect

def channelText (ev : RegistryEvent) : GoStr := marshalStrings (ev.channels.map (take maxRegistryChannelsPerConnection))

variable {cfg} {v : Values} {cmd : Cmd GoStr} {key c c' : GoStr} {ks : List GoStr} {fs : Assoc GoStr GoStr} {seconds : Int}

/-! ## Keys that do not expire -/

theorem value_exec {db : Db GoStr} {now : Time} (hlive : db.get now cmd.key = db cmd.key)
    (hpos : ∀ key seconds, cmd = .expire key seconds → 0 < seconds) :
    (fun k => (db.exec now cmd k).map Entry.value) = put (fun k => (db k).map Entry.value) cmd := by
  funext k
  rcases eq_or_ne cmd.key k with rfl | hk
  · rw [exec_self, hlive, put, update_self]
    cases hdb : db cmd.key with
    | none => cases cmd <;> rfl
    | some e =>
      obtain ⟨value, expires⟩ := e
      cases cmd with
      | expire key seconds => simp [Cmd.apply, Int.not_le.2 (hpos key seconds rfl)]
      | srem key gone =>
        cases value with
        | hash fields => rfl
        | set ms =>
          simp only [Cmd.apply, Option.map_some]
          split <;> rfl
      | hset key fields | sadd key member | del key => cases value <;> rfl
  · rw [exec_of_ne hk, put, update_of_ne hk.symm]

theorem put_of_ne (cmd : Cmd GoStr) (h : cmd.key ≠ key) : put v cmd key = v key := update_of_ne h.symm _ _

theorem put_expire (h : 0 < seconds) : put v (.expire key seconds) = v := by
  unfold put
  refine update_eq_self_iff.2 ?_
  cases hv : v key with
  | none => simp [Cmd.key, Cmd.apply, hv]
  | some x => simp [Cmd.key, Cmd.apply, hv, Int.not_le.2 h]

theorem put_del : put v (.del key) key = none := by simp [put, Cmd.key, Cmd.apply]

theorem put_hset_none (fs : Assoc GoStr GoStr) (h : v key = none) :
    put v (.hset key fs) key = some (.hash (Assoc.setAll [] fs)) := by
  simp [put, Cmd.key, Cmd.apply, h]

theorem put_hset_hash {old : Assoc GoStr GoStr} (h : v key = some (.hash old)) :
    put v (.hset key fs) key = some (.hash (Assoc.setAll old fs)) := by
  simp [put, Cmd.key, Cmd.apply, h]

theorem members_eq_nil (h : ∀ ms, v key ≠ some (.set ms)) : members v key = [] := by
  unfold members
  split
  · rename_i ms hv
    exact absurd hv (h ms)
  · rfl

theorem members_put_of_ne (cmd : Cmd GoStr) (h : cmd.key ≠ key) : members (put v cmd) key = members v key := by
  rw [members, put_of_ne _ h, members]

theorem members_put (cmd : Cmd GoStr) (h : ∀ ms, v cmd.key ≠ some (.set ms)) (h' : ∀ ms, put v cmd cmd.key ≠ some (.set ms)) :
    members (put v cmd) key = members v key := by
  rcases eq_or_ne cmd.key key with rfl | hne
  · rw [members_eq_nil h, members_eq_nil h']
  · exact members_put_of_ne cmd hne

def NoHash (v : Values) (key : GoStr) : Prop := ∀ fields, v key ≠ some (.hash fields)

theorem put_sadd (c : GoStr) (h : NoHash v key) : NoHash (put v (.sadd key c)) key ∧
    ∀ c', c' ∈ members (put v (.sadd key c)) key ↔ c' ∈ members v key ∨ c' = c := by
  cases hv : v key with
  | none => simp [NoHash, members, put, Cmd.key, Cmd.apply, hv]
  | some x =>
    cases x with
    | hash fields => exact absurd hv (h fields)
    | set ms =>
      by_cases hm : c ∈ ms <;> simp [NoHash, members, put, Cmd.key, Cmd.apply, hv, hm]

theorem put_srem (c : GoStr) (h : NoHash v key) : NoHash (put v (.srem key [c])) key ∧
    ∀ c', c' ∈ members (put v (.srem key [c])) key ↔ c' ∈ members v key ∧ c' ≠ c := by
  cases hv : v key with
  | none => simp [NoHash, members, put, Cmd.key, Cmd.apply, hv]
  | some x =>
    cases x with
    | hash fields => exact absurd hv (h fields)
    | set ms =>
      simp only [NoHash, members, put, Cmd.key, update_self, hv, Option.map_some, Cmd.apply]
      split
      · rename_i hl
        simpa using filter_eq_nil_iff.1 hl
      · simp

/-! ## The commands of an event -/

def spread (f : GoStr → Cmd GoStr) (v : Values) (ks : List GoStr) : Values := ks.foldl (fun v key => put v (f key)) v
def Sets (cfg : RegistryConfig π) (v : Values) : Prop := ∀ key, NoConn cfg key → NoHash v key

theorem noConn_idxKeys (info : ConnOwnership) (h : key ∈ idxKeys cfg info) : NoConn cfg key := by
  unfold idxKeys at h
  rcases mem_cons.1 h with rfl | h
  · exact noConn_tenantIdxKey _
  · split at h
    · rw [mem_singleton.1 h]
      exact noConn_apiKeyIdxKey _ _
    · cases h

theorem sets_put (cmd : Cmd GoStr) (h : Sets cfg v) (hk : NoConn cfg cmd.key → NoHash (put v cmd) cmd.key) :
    Sets cfg (put v cmd) := by
  intro key hno
  rcases eq_or_ne cmd.key key with rfl | hne
  · exact hk hno
  · intro fields
    rw [put_of_ne _ hne]
    exact h key hno fields

/-- One command on each of some indexes, where a second one would change nothing. -/
theorem spread_spec {f : GoStr → Cmd GoStr} {R : GoStr → Prop → Prop} (hf : ∀ key, (f key).key = key)
    (hput : ∀ v key, NoHash v key → NoHash (put v (f key)) key ∧ ∀ c, c ∈ members (put v (f key)) key ↔ R c (c ∈ members v key))
    (hR : ∀ c p, R c (R c p) ↔ R c p) (ks : List GoStr) (h : Sets cfg v) (hks : ∀ key ∈ ks, NoConn cfg key) :
    Sets cfg (spread f v ks) ∧ (∀ c, spread f v ks (connKey cfg.environment c) = v (connKey cfg.environment c)) ∧
    ∀ c key, c ∈ members (spread f v ks) key ↔ if key ∈ ks then R c (c ∈ members v key) else c ∈ members v key := by
  induction ks generalizing v with
  | nil => exact ⟨h, fun _ => rfl, by simp [spread]⟩
  | cons k ks ih =>
    have hk := hks k mem_cons_self
    obtain ⟨hno, hm⟩ := hput v k (h k hk)
    have hsets : Sets cfg (put v (f k)) := sets_put (f k) h fun _ => (hf k).symm ▸ hno
    obtain ⟨hs, hconn, hmem⟩ := ih hsets fun key hx => hks key (mem_cons_of_mem _ hx)
    refine ⟨hs, fun c => ?_, fun c key => ?_⟩
    · exact (hconn c).trans (put_of_ne _ fun heq => hk c (heq.symm.trans (hf k)))
    · refine (hmem c key).trans ?_
      rcases eq_or_ne k key with rfl | hne
      · rw [hm, hR]
        simp
      · rw [members_put_of_ne (f k) fun heq => hne ((hf k).symm.trans heq)]
        simp [hne.symm]

def connectFields (cfg : RegistryConfig π) (ev : RegistryEvent) : Assoc GoStr GoStr :=
  [(str "tenant_id", ev.tenantID), (str "api_key_id", ev.apiKeyID), (str "user_id", ev.userID),
    (str "pod_id", ev.podID), (str "shard_id", GoStr.formatInt ev.shardID), (str "remote_ip", ev.remoteIP),
    (str "transport", ev.transport), (str "connected_at", cfg.rfc3339 ev.connectedAt)]

theorem foldl_connectCmds (ev : RegistryEvent) : (connectCmds cfg ev).foldl put v =
    spread (.sadd · ev.connID) (put v (.hset (connKey cfg.environment ev.connID) (connectFields cfg ev ++ channelFields ev)))
      (idxKeys cfg ev.info) := by
  by_cases hk : ev.apiKeyID = []
  · simp [connectCmds, spread, idxKeys, connectFields, RegistryEvent.info, hk, put_expire cfg.ttlSecs_pos]
  · simp [connectCmds, spread, idxKeys, connectFields, RegistryEvent.info, hk, put_expire cfg.ttlSecs_pos]

theorem foldl_removeCmds (c : GoStr) (info : ConnOwnership) : (removeCmds cfg c info).foldl put v =
    spread (.srem · [c]) (put v (.del (connKey cfg.environment c))) (idxKeys cfg info) := by
  by_cases hk : info.apiKeyID = [] <;> simp [removeCmds, spread, idxKeys, hk]

theorem get_channels (old new : Assoc GoStr GoStr) (ev : RegistryEvent) :
    Assoc.get (Assoc.setAll old (new ++ channelFields ev)) (str "channels") = some (channelText ev) := by
  have hne : str "channels" ≠ str "channels_capped" := by decide
  have htext : (if maxRegistryChannelsPerConnection < (ev.channels.getD []).length then
      ev.channels.map (take maxRegistryChannelsPerConnection) else ev.channels) =
      ev.channels.map (take maxRegistryChannelsPerConnection) := by
    cases hc : ev.channels with
    | none => simp
    | some xs =>
      split
      · rfl
      · rename_i hlt
        simp only [Option.getD_some, Nat.not_lt] at hlt
        rw [Option.map_some, take_of_length_le hlt]
  simp [Assoc.setAll, foldl_append, channelFields, Assoc.get_set, hne, channelText, htext]

/-! ## Events -/

/-- The store has what the writer owns after the events `past`. -/
structure Mirrors (cfg : RegistryConfig π) (past : List RegistryEvent) (m : Mirror) : Prop where
  hash : ∀ c info, Assoc.get m.owned c = some info → ∃ ev fields, lastSnapshot past c = some ev ∧
    m.store (connKey cfg.environment c) = some (.hash fields) ∧ Assoc.get fields (str "channels") = some (channelText ev)
  gone : ∀ c, Assoc.get m.owned c = none → m.store (connKey cfg.environment c) = none
  index : ∀ c key, c ∈ members m.store key ↔ ∃ info, Assoc.get m.owned c = some info ∧ key ∈ idxKeys cfg info
  sets : Sets cfg m.store
  connected : ∀ c info, Assoc.get m.owned c = some info → ∃ ev ∈ past, ev.connects c
  gauge : m.gauge = m.owned.length
  nodup : (m.owned.map Prod.fst).Nodup

variable {past batch : List RegistryEvent} {m : Mirror} {ev : RegistryEvent} {owned order : Owned} {info : ConnOwnership}

theorem mirrors_initial (cfg : RegistryConfig π) : Mirrors cfg [] Mirror.initial := by
  refine ⟨nofun, fun _ _ => rfl, fun c key => ?_, nofun, nofun, rfl, nodup_nil⟩
  simp [members, Mirror.initial]

theorem Mirrors.noSet (h : Mirrors cfg past m) (c : GoStr) (ms : List GoStr) :
    m.store (connKey cfg.environment c) ≠ some (.set ms) := by
  cases hg : Assoc.get m.owned c with
  | none => simp [h.gone c hg]
  | some info =>
    obtain ⟨ev, fields, -, hst, -⟩ := h.hash c info hg
    simp [hst]

theorem put_other (hk : cmd.key = connKey cfg.environment c) (hc : c' ≠ c) :
    put v cmd (connKey cfg.environment c') = v (connKey cfg.environment c') :=
  put_of_ne _ fun heq => hc (connKey_inj.1 (hk.symm.trans heq)).symm

theorem lastSnapshot_append (past : List RegistryEvent) (ev : RegistryEvent) (c : GoStr) :
    lastSnapshot (past ++ [ev]) c = if ev.connID = c ∧ ev.kind ≠ .disconnect then some ev else lastSnapshot past c := by
  simp [lastSnapshot, find?_cons]
  split <;> simp_all

theorem erase_of_not_mem (h : c ∉ owned.map Prod.fst) : Assoc.erase owned c = owned := by
  refine filter_eq_self.2 fun e he => decide_eq_true ?_
  rintro rfl
  exact h (mem_map_of_mem he)

theorem mem_keys : c ∈ owned.map Prod.fst ↔ ∃ info, Assoc.get owned c = some info := by
  rw [← Option.ne_none_iff_exists', Assoc.get_ne_none_iff]
  simp

section
variable (hn : (owned.map Prod.fst).Nodup)
include hn

theorem length_erase (hm : c ∈ owned.map Prod.fst) : (Assoc.erase owned c).length + 1 = owned.length := by
  induction owned with
  | nil => cases hm
  | cons e rest ih =>
    rw [map_cons, nodup_cons] at hn
    by_cases he : e.1 = c
    · have hcut : Assoc.erase (e :: rest) c = Assoc.erase rest c := by simp [Assoc.erase, he]
      rw [hcut, erase_of_not_mem (he ▸ hn.1), length_cons]
    · have hcut : Assoc.erase (e :: rest) c = e :: Assoc.erase rest c := by simp [Assoc.erase, he]
      rw [hcut, length_cons, ih hn.2 ((mem_cons.1 hm).resolve_left (Ne.symm he)), length_cons]

theorem get_of_mem {x : ConnOwnership} (h : (c, x) ∈ owned) : Assoc.get owned c = some x := by
  obtain ⟨y, hy⟩ := mem_keys.1 (mem_map_of_mem (f := Prod.fst) h)
  have heq := inj_on_of_nodup_map hn (Assoc.mem_of_get hy) h rfl
  rw [hy, (Prod.mk.inj heq).2]

theorem nodup_erase : ((Assoc.erase owned c).map Prod.fst).Nodup :=
  hn.sublist (filter_sublist.map _)

end

/-- The commands of one event change one connection: what it owns is now `o`. -/
structure Changed (cfg : RegistryConfig π) (c : GoStr) (o : Option ConnOwnership) (v v' : Values) : Prop where
  sets : Sets cfg v'
  others : ∀ c', c' ≠ c → v' (connKey cfg.environment c') = v (connKey cfg.environment c')
  index : ∀ c' key, c' ∈ members v' key ↔ if c' = c then ∃ info, o = some info ∧ key ∈ idxKeys cfg info else c' ∈ members v key

section
variable (h : Mirrors cfg past m)
include h

theorem Mirrors.update {m' : Mirror} {o : Option ConnOwnership}
    (hget : ∀ c, Assoc.get m'.owned c = if c = ev.connID then o else Assoc.get m.owned c)
    (hch : Changed cfg ev.connID o m.store m'.store) (hnone : o = none → m'.store (connKey cfg.environment ev.connID) = none)
    (hsome : ∀ info, o = some info → ev.kind ≠ .disconnect ∧ (ev.kind = .connect ∨ Assoc.get m.owned ev.connID = o) ∧
      ∃ fields, m'.store (connKey cfg.environment ev.connID) = some (.hash fields) ∧
        Assoc.get fields (str "channels") = some (channelText ev))
    (hgauge : m'.gauge = m'.owned.length) (hnodup : (m'.owned.map Prod.fst).Nodup) : Mirrors cfg (past ++ [ev]) m' := by
  refine ⟨fun c info hg => ?_, fun c hg => ?_, fun c key => ?_, hch.sets, fun c info hg => ?_, hgauge, hnodup⟩
  · rw [hget] at hg
    rw [lastSnapshot_append]
    by_cases hc : c = ev.connID
    · subst hc
      rw [if_pos rfl] at hg
      obtain ⟨hk, -, fields, hst, htext⟩ := hsome info hg
      exact ⟨ev, fields, if_pos ⟨rfl, hk⟩, hst, htext⟩
    · rw [if_neg hc] at hg
      obtain ⟨e, fields, hl, hst, htext⟩ := h.hash c info hg
      exact ⟨e, fields, by rw [if_neg fun hx => hc hx.1.symm, hl], (hch.others c hc).trans hst, htext⟩
  · rw [hget] at hg
    by_cases hc : c = ev.connID
    · rw [if_pos hc] at hg
      rw [hc]
      exact hnone hg
    · rw [if_neg hc] at hg
      exact (hch.others c hc).trans (h.gone c hg)
  · rw [hch.index, hget]
    split
    · rfl
    · exact h.index c key
  · rw [hget] at hg
    have hold : Assoc.get m.owned c = some info → ∃ e ∈ past ++ [ev], e.connects c := fun hg => by
      obtain ⟨e, he, hc⟩ := h.connected c info hg
      exact ⟨e, mem_append_left _ he, hc⟩
    split at hg
    · rename_i hc
      obtain ⟨-, hk | hk, -⟩ := hsome info hg
      · exact ⟨ev, mem_append_right _ mem_cons_self, hk, hc.symm⟩
      · exact hold (hc ▸ hk.trans hg)
    · exact hold hg

theorem Mirrors.connect (hk : ev.kind = .connect) (hnew : ∀ e ∈ past, ¬e.connects ev.connID) :
    Mirrors cfg (past ++ [ev]) (m.flush cfg [ev]) := by
  have hno : ev.connID ∉ m.owned.map Prod.fst := fun hm => by
    obtain ⟨info, hi⟩ := mem_keys.1 hm
    obtain ⟨e, he, hc⟩ := h.connected _ _ hi
    exact hnew e he hc
  have hfree : Assoc.get m.owned ev.connID = none :=
    Option.eq_none_iff_forall_ne_some.2 fun info hg => hno (mem_keys.2 ⟨info, hg⟩)
  have hflush : m.flush cfg [ev] = ⟨Assoc.set m.owned ev.connID ev.info, (connectCmds cfg ev).foldl put m.store, m.gauge + 1⟩ := by
    simp [Mirror.flush, flushBatch, flushEvent, gaugeBatch, gaugeEvent, hk, RegistryEvent.info]
  have hset : Assoc.set m.owned ev.connID ev.info = m.owned ++ [(ev.connID, ev.info)] := by
    rw [Assoc.set, erase_of_not_mem hno]
  have hhash := put_hset_none (connectFields cfg ev ++ channelFields ev) (h.gone _ hfree)
  obtain ⟨hs, hconn, hmem⟩ := spread_spec (R := fun c p => p ∨ c = ev.connID) (fun _ => rfl) (fun _ _ => put_sadd ev.connID)
    (by simp) (idxKeys cfg ev.info) (sets_put (.hset (connKey cfg.environment ev.connID) (connectFields cfg ev ++ channelFields ev))
      h.sets fun hno => absurd rfl (hno ev.connID)) fun key hx => noConn_idxKeys ev.info hx
  rw [hflush, foldl_connectCmds]
  refine h.update (o := some ev.info) (fun c => Assoc.get_set _ _ _ _) ⟨hs, fun c hc => ?_, fun c key => ?_⟩
    (fun hn => absurd hn (Option.some_ne_none _))
    (fun info hi => ⟨by simp [hk], Or.inl hk, _, (hconn _).trans hhash, get_channels _ _ _⟩) ?_ ?_
  · exact (hconn c).trans (put_other rfl hc)
  · refine (hmem c key).trans ?_
    rw [members_put _ (h.noSet _) (by simp [Cmd.key, hhash]), h.index]
    by_cases hc : c = ev.connID
    · subst hc
      simp [hfree]
    · simp [hc]
  · simp [hset, h.gauge]
  · rw [hset, map_append, nodup_append]
    refine ⟨h.nodup, nodup_singleton _, fun a ha b hb heq => hno ?_⟩
    obtain rfl : b = ev.connID := by simpa using hb
    exact heq ▸ ha

theorem Mirrors.disconnect (hk : ev.kind = .disconnect) : Mirrors cfg (past ++ [ev]) (m.flush cfg [ev]) := by
  let info := (Assoc.get m.owned ev.connID).getD ev.info
  have hflush : m.flush cfg [ev] = ⟨Assoc.erase m.owned ev.connID, (removeCmds cfg ev.connID info).foldl put m.store,
      m.gauge + if (Assoc.get m.owned ev.connID).isSome then -1 else 0⟩ := by
    simp [Mirror.flush, flushBatch, flushEvent, gaugeBatch, gaugeEvent, hk, info, RegistryEvent.info]
  obtain ⟨hs, hconn, hmem⟩ := spread_spec (R := fun c p => p ∧ c ≠ ev.connID) (fun _ => rfl) (fun _ _ => put_srem ev.connID)
    (by simp) (idxKeys cfg info) (sets_put (.del (connKey cfg.environment ev.connID)) h.sets fun hno => absurd rfl (hno ev.connID))
    fun key hx => noConn_idxKeys info hx
  rw [hflush, foldl_removeCmds]
  refine h.update (o := none) (fun c => Assoc.get_erase _ _ _) ⟨hs, fun c hc => ?_, fun c key => ?_⟩
    (fun _ => (hconn _).trans put_del) (fun _ hn => absurd hn.symm (Option.some_ne_none _)) ?_ (nodup_erase h.nodup)
  · exact (hconn c).trans (put_other rfl hc)
  · refine (hmem c key).trans ?_
    rw [members_put _ (h.noSet _) (by simp [Cmd.key, put_del]), h.index]
    by_cases hc : c = ev.connID
    · subst hc
      simp only [info]
      grind
    · simp [hc]
  · cases hg : Assoc.get m.owned ev.connID with
    | none =>
      have hno : ev.connID ∉ m.owned.map Prod.fst := fun hm => by
        obtain ⟨info, hi⟩ := mem_keys.1 hm
        rw [hg] at hi
        cases hi
      simp [erase_of_not_mem hno, h.gauge]
    | some info =>
      have hlen := length_erase h.nodup (mem_keys.2 ⟨info, hg⟩)
      simp only [h.gauge, Option.isSome_some, if_true]
      omega

theorem Mirrors.subscribe (hk : ev.kind = .subscribe ∨ ev.kind = .unsubscribe) :
    Mirrors cfg (past ++ [ev]) (m.flush cfg [ev]) := by
  cases hg : Assoc.get m.owned ev.connID with
  | none =>
    have hflush : m.flush cfg [ev] = m := by
      rcases hk with hk | hk <;> simp [Mirror.flush, flushBatch, flushEvent, gaugeBatch, gaugeEvent, hk, hg]
    rw [hflush]
    refine h.update (o := none) (fun c => ?_) ⟨h.sets, fun _ _ => rfl, fun c key => ?_⟩ (fun _ => h.gone _ hg)
      (fun _ hn => absurd hn.symm (Option.some_ne_none _)) h.gauge h.nodup
    · split <;> simp_all
    · rw [h.index]
      split <;> simp_all
  | some info =>
    have hflush : m.flush cfg [ev] =
        ⟨m.owned, put m.store (.hset (connKey cfg.environment ev.connID) (channelFields ev)), m.gauge⟩ := by
      rcases hk with hk | hk <;> simp [Mirror.flush, flushBatch, flushEvent, gaugeBatch, gaugeEvent, hk, hg]
    obtain ⟨-, fields, -, hst, -⟩ := h.hash _ _ hg
    rw [hflush]
    refine h.update (o := some info) (fun c => ?_) ⟨?_, fun c hc => put_other rfl hc, fun c key => ?_⟩
      (fun hn => absurd hn (Option.some_ne_none _))
      (fun _ hi => ⟨by rcases hk with hk | hk <;> simp [hk], Or.inr hg, _, put_hset_hash hst, get_channels fields [] ev⟩) h.gauge
      h.nodup
    · split <;> simp_all
    · exact sets_put (.hset (connKey cfg.environment ev.connID) (channelFields ev)) h.sets
        fun hno => absurd rfl (hno ev.connID)
    · rw [members_put _ (h.noSet _) (by simp [Cmd.key, put_hset_hash hst]), h.index]
      split <;> simp_all

end

/-- Each connection identifier connects at most once. -/
def ConnectsOnce (evs : List RegistryEvent) : Prop := ((evs.filter (·.kind = .connect)).map RegistryEvent.connID).Nodup

theorem Mirrors.event (h : Mirrors cfg past m) (ho : ConnectsOnce (past ++ [ev])) :
    Mirrors cfg (past ++ [ev]) (m.flush cfg [ev]) := by
  cases hk : ev.kind with
  | connect =>
    refine h.connect hk fun e he hc => ?_
    rw [ConnectsOnce, filter_append, map_append, nodup_append] at ho
    refine ho.2.2 _ (mem_map_of_mem (mem_filter.2 ⟨he, decide_eq_true hc.1⟩)) ev.connID ?_ hc.2
    simp [hk]
  | disconnect => exact h.disconnect hk
  | subscribe => exact h.subscribe (Or.inl hk)
  | unsubscribe => exact h.subscribe (Or.inr hk)

theorem flush_cons (m : Mirror) (ev : RegistryEvent) (batch : List RegistryEvent) :
    m.flush cfg (ev :: batch) = (m.flush cfg [ev]).flush cfg batch := by
  simp [Mirror.flush, flushBatch, gaugeBatch, foldl_append, Int.add_assoc]

theorem ConnectsOnce.left {evs evs' : List RegistryEvent} (h : ConnectsOnce (evs ++ evs')) : ConnectsOnce evs := by
  rw [ConnectsOnce, filter_append, map_append] at h
  exact (nodup_append.1 h).1

theorem Mirrors.flush (h : Mirrors cfg past m) (batch : List RegistryEvent) (ho : ConnectsOnce (past ++ batch)) :
    Mirrors cfg (past ++ batch) (m.flush cfg batch) := by
  induction batch generalizing past m with
  | nil =>
    have hflush : m.flush cfg [] = m := by simp [Mirror.flush, flushBatch, gaugeBatch]
    rwa [hflush, append_nil]
  | cons ev batch ih =>
    rw [flush_cons]
    rw [append_cons] at ho ⊢
    exact ih (h.event ho.left) ho

theorem Mirrors.batches (h : Mirrors cfg past m) (bs : List (List RegistryEvent)) (ho : ConnectsOnce (past ++ bs.flatten)) :
    Mirrors cfg (past ++ bs.flatten) (bs.foldl (Mirror.flush cfg) m) := by
  induction bs generalizing past m with
  | nil => simpa using h
  | cons b bs ih =>
    rw [flatten_cons, ← append_assoc] at ho ⊢
    exact ih (h.flush _ ho.left) ho

/-! ## The sweep -/

theorem flushBatch_disconnects (cfg : RegistryConfig π) (hn : (order.map Prod.fst).Nodup)
    (hget : ∀ e ∈ order, Assoc.get owned e.1 = some e.2) :
    (flushBatch cfg owned (order.map fun e => disconnectEvent e.1 e.2)).2 = sweepCmds cfg order ∧
    ∀ c, Assoc.get (flushBatch cfg owned (order.map fun e => disconnectEvent e.1 e.2)).1 c =
      if c ∈ order.map Prod.fst then none else Assoc.get owned c := by
  induction order generalizing owned with
  | nil => exact ⟨rfl, fun _ => rfl⟩
  | cons e order ih =>
    rw [map_cons, nodup_cons] at hn
    have hnext : ∀ d ∈ order, Assoc.get (Assoc.erase owned e.1) d.1 = some d.2 := fun d hd => by
      have hne : d.1 ≠ e.1 := fun heq => hn.1 (heq ▸ mem_map_of_mem hd)
      rw [Assoc.get_erase, if_neg hne, hget d (mem_cons_of_mem _ hd)]
    obtain ⟨hcmds, hleft⟩ := ih hn.2 hnext
    have hev : flushEvent cfg owned (disconnectEvent e.1 e.2) = (Assoc.erase owned e.1, removeCmds cfg e.1 e.2) := by
      simp [flushEvent, disconnectEvent, hget e mem_cons_self]
    refine ⟨?_, fun c => ?_⟩
    · rw [map_cons, flushBatch_cons, hev, hcmds]
      rfl
    · rw [map_cons, flushBatch_cons, hev, hleft, Assoc.get_erase]
      by_cases hc : c = e.1
      · simp [hc]
      · simp only [hc, if_false, map_cons, mem_cons, false_or]

/-- **The registry mirrors the writer's ownership** after any batches: hashes with the last snapshot of channels, indexes and the
gauge. After a shutdown nothing is left. -/
theorem registry_mirrors_owned (cfg : RegistryConfig π) (bs : List (List RegistryEvent))
    (unflushed drained rest : List RegistryEvent) (honce : ConnectsOnce (bs.flatten ++ (unflushed ++ drained ++ rest))) :
    (let m := bs.foldl (Mirror.flush cfg) Mirror.initial
     (∀ c, m.store (connKey cfg.environment c) ≠ none ↔ ∃ info, Assoc.get m.owned c = some info) ∧
     (∀ c key, c ∈ members m.store key ↔ ∃ info, Assoc.get m.owned c = some info ∧ key ∈ idxKeys cfg info) ∧
     (∀ c info, Assoc.get m.owned c = some info → ∃ ev fields, lastSnapshot bs.flatten c = some ev ∧
       m.store (connKey cfg.environment c) = some (.hash fields) ∧ Assoc.get fields (str "channels") = some (channelText ev)) ∧
     m.gauge = m.owned.length) ∧
    ∀ order, order.Perm ((bs.foldl (Mirror.flush cfg) Mirror.initial).flush cfg drained).owned →
      let m := ((bs.foldl (Mirror.flush cfg) Mirror.initial).flush cfg drained).sweep cfg order
      (∀ c, m.store (connKey cfg.environment c) = none) ∧ (∀ c key, c ∉ members m.store key) ∧ m.gauge = 0 := by
  have hbs : Mirrors cfg bs.flatten (bs.foldl (Mirror.flush cfg) Mirror.initial) := by
    simpa using (mirrors_initial cfg).batches bs (by simpa using honce.left)
  have hdrained : ConnectsOnce (bs.flatten ++ drained) := by
    refine Nodup.sublist (Sublist.map _ (Sublist.filter _ (Sublist.append_left ?_ _))) honce
    exact (sublist_append_right _ _).trans (sublist_append_left _ _)
  refine ⟨⟨fun c => ?_, hbs.index, hbs.hash, hbs.gauge⟩, fun order horder => ?_⟩
  · cases hg : Assoc.get (bs.foldl (Mirror.flush cfg) Mirror.initial).owned c with
    | none => simp [hbs.gone c hg]
    | some info =>
      obtain ⟨ev, fields, -, hst, -⟩ := hbs.hash c info hg
      simp [hst]
  · have hm := hbs.flush _ hdrained
    have hn := (horder.map Prod.fst).nodup_iff.2 hm.nodup
    have hlen := horder.length_eq
    generalize (bs.foldl (Mirror.flush cfg) Mirror.initial).flush cfg drained = m at hm horder hlen ⊢
    obtain ⟨hcmds, hleft⟩ := flushBatch_disconnects cfg hn fun e he => get_of_mem hm.nodup (horder.mem_iff.1 he)
    have hgone : ∀ c, Assoc.get (m.flush cfg (order.map fun e => disconnectEvent e.1 e.2)).owned c = none := fun c => by
      refine (hleft c).trans ?_
      split
      · rfl
      · rename_i hno
        refine Option.eq_none_iff_forall_ne_some.2 fun info hg => hno ?_
        exact (horder.map _).mem_iff.2 (mem_keys.2 ⟨info, hg⟩)
    have hstore : (m.sweep cfg order).store = (m.flush cfg (order.map fun e => disconnectEvent e.1 e.2)).store := by
      rw [Mirror.sweep, Mirror.flush, hcmds]
    have hswept := hm.flush (order.map fun e => disconnectEvent e.1 e.2) (by
      simpa [ConnectsOnce, filter_append, filter_map, disconnectEvent, comp_def] using hdrained)
    refine ⟨fun c => ?_, fun c key hc => ?_, ?_⟩
    · rw [hstore]
      exact hswept.gone c (hgone c)
    · rw [hstore, hswept.index] at hc
      obtain ⟨info, hg, -⟩ := hc
      rw [hgone c] at hg
      cases hg
    · have hg := hm.gauge
      simp only [Mirror.sweep]
      omega

def mirrorConfig : RegistryConfig Unit :=
  ⟨str "dev", fun _ => str "p", 20 * second, 6 * second, 0, 4, fun _ => [], by decide, by decide⟩

def mirrorBatches : List (List RegistryEvent) :=
  [[{ kind := .connect, connID := str "a", tenantID := str "t", apiKeyID := str "k" },
      { kind := .connect, connID := str "b", tenantID := str "t" }],
    [subscribeEvent false (str "a") [str "x"] false]]

theorem registry_mirrors_owned_demo :
    (mirrorBatches.foldl (Mirror.flush mirrorConfig) Mirror.initial).gauge = 2 ∧
    ∀ order, order.Perm ((mirrorBatches.foldl (Mirror.flush mirrorConfig) Mirror.initial).flush mirrorConfig
        [disconnectEvent (str "b") ⟨str "t", []⟩]).owned →
      (((mirrorBatches.foldl (Mirror.flush mirrorConfig) Mirror.initial).flush mirrorConfig
        [disconnectEvent (str "b") ⟨str "t", []⟩]).sweep mirrorConfig order).gauge = 0 := by
  have h := registry_mirrors_owned mirrorConfig mirrorBatches [] [disconnectEvent (str "b") ⟨str "t", []⟩] []
    (by unfold ConnectsOnce; decide +kernel)
  exact ⟨h.1.2.2.2.trans (by decide +kernel), fun order ho => (h.2 order ho).2.2⟩

end Sukko.Registry
