import Sukko.Lib.Steps
import Sukko.Server.Messages
/-
# The subscription index and the clients' own sets

Here the map itself is kept, so that an empty entry can be told from one that is gone (`Reads`).
-/

namespace Sukko.Server
open Replica Steps List

abbrev Entries := Map GoStr (List Ref)

namespace Entries

/-- See `server/connection.go:520`. -/
def add (m : Entries) (ch : GoStr) (c : Ref) : Entries :=
  let snapshot := (m ch).getD []
  if c ∈ snapshot then m else m.set ch (snapshot ++ [c])

def addMultiple (m : Entries) (chs : List GoStr) (c : Ref) : Entries := chs.foldl (fun m ch => m.add ch c) m

/-- See `server/connection.go:591`. -/
def remove (m : Entries) (ch : GoStr) (c : Ref) : Entries :=
  match m ch with
  | none => m
  | some snapshot =>
    if c ∈ snapshot then
      let snapshot := snapshot.erase c
      if snapshot = [] then m.delete ch else m.set ch snapshot
    else m

def removeMultiple (m : Entries) (chs : List GoStr) (c : Ref) : Entries := chs.foldl (fun m ch => m.remove ch c) m
def Reads (m : Entries) (idx : SubscriptionIndex) : Prop := ∀ ch, (m ch).getD [] = idx.get ch
def Pruned (m : Entries) : Prop := ∀ ch, m ch ≠ some []

variable {c : Ref} {chs : List GoStr} {m : Entries} {idx : SubscriptionIndex}

theorem Reads.add (h : m.Reads idx) (ch : GoStr) (c : Ref) : (m.add ch c).Reads (idx.add ch c) := by
  intro ch'
  have hs := h ch
  simp only [SubscriptionIndex.get] at hs
  by_cases hc : c ∈ idx.subscribers ch
  · rw [Entries.add, if_pos (hs ▸ hc), SubscriptionIndex.add, dif_pos hc]
    exact h ch'
  · rw [Entries.add, if_neg (hs ▸ hc), SubscriptionIndex.add, dif_neg hc]
    by_cases he : ch' = ch
    · subst he
      simp [Map.set_self, SubscriptionIndex.get, SubscriptionIndex.store, hs]
    · rw [Map.set_of_ne _ _ he]
      simpa [SubscriptionIndex.get, SubscriptionIndex.store, he] using h ch'

theorem Reads.remove (h : m.Reads idx) (ch : GoStr) (c : Ref) : (m.remove ch c).Reads (idx.remove ch c) := by
  have hg : ∀ ch', (idx.remove ch c).get ch' = if ch' = ch then (idx.get ch).erase c else idx.get ch' := by
    intro ch'
    by_cases he : ch' = ch
    · subst he
      simp [SubscriptionIndex.get, SubscriptionIndex.remove, SubscriptionIndex.store]
    · simp [SubscriptionIndex.get, SubscriptionIndex.remove, SubscriptionIndex.store, he]
  intro ch'
  rw [hg]
  have hs := h ch
  cases hm : m ch with simp only [Entries.remove, hm]
  | none =>
    rw [hm] at hs
    by_cases he : ch' = ch
    · subst he
      simp [hm, ← hs]
    · simpa [he] using h ch'
  | some snapshot =>
    rw [hm] at hs
    simp only [Option.getD_some] at hs
    by_cases hc : c ∈ snapshot
    · by_cases hn : snapshot.erase c = []
      · by_cases he : ch' = ch
        · subst he
          simp [hc, hn, Map.delete_self, ← hs]
        · simpa [hc, hn, Map.delete_of_ne _ he, he] using h ch'
      · by_cases he : ch' = ch
        · subst he
          simp [hc, hn, Map.set_self, ← hs]
        · simpa [hc, hn, Map.set_of_ne _ _ he, he] using h ch'
    · by_cases he : ch' = ch
      · subst he
        simp [hc, hm, ← hs, erase_of_not_mem hc]
      · simpa [hc, he] using h ch'

theorem Pruned.add (h : m.Pruned) (ch : GoStr) (c : Ref) : (m.add ch c).Pruned := by
  intro ch'
  unfold Entries.add
  split
  · exact h ch'
  · by_cases he : ch' = ch
    · subst he
      simp [Map.set_self]
    · rw [Map.set_of_ne _ _ he]
      exact h ch'

theorem Pruned.remove (h : m.Pruned) (ch : GoStr) (c : Ref) : (m.remove ch c).Pruned := by
  intro ch'
  cases hm : m ch with simp only [Entries.remove, hm]
  | none =>
    exact h ch'
  | some snapshot =>
    by_cases hc : c ∈ snapshot
    · by_cases hn : snapshot.erase c = []
      · simp only [hc, hn, if_true]
        by_cases he : ch' = ch
        · subst he
          simp [Map.delete_self]
        · rw [Map.delete_of_ne _ he]
          exact h ch'
      · simp only [hc, hn, if_true, if_false]
        by_cases he : ch' = ch
        · subst he
          simpa [Map.set_self] using hn
        · rw [Map.set_of_ne _ _ he]
          exact h ch'
    · simp only [hc, if_false]
      exact h ch'

theorem Reads.addMultiple : ∀ {m : Entries} {idx : SubscriptionIndex}, m.Reads idx →
    (m.addMultiple chs c).Reads (idx.addMultiple chs c) := by
  induction chs with
  | nil => exact fun h => h
  | cons ch chs ih => exact fun h => ih (h.add ch c)

theorem Reads.removeMultiple : ∀ {m : Entries} {idx : SubscriptionIndex}, m.Reads idx →
    (m.removeMultiple chs c).Reads (idx.removeMultiple chs c) := by
  induction chs with
  | nil => exact fun h => h
  | cons ch chs ih => exact fun h => ih (h.remove ch c)

theorem Pruned.addMultiple : ∀ {m : Entries}, m.Pruned → (m.addMultiple chs c).Pruned := by
  induction chs with
  | nil => exact fun h => h
  | cons ch chs ih => exact fun h => ih (h.add ch c)

theorem Pruned.removeMultiple : ∀ {m : Entries}, m.Pruned → (m.removeMultiple chs c).Pruned := by
  induction chs with
  | nil => exact fun h => h
  | cons ch chs ih => exact fun h => ih (h.remove ch c)

end Entries

/-! ## What a message changes -/

inductive Change
  | register (channels : List GoStr)
  | unregister (channels : List GoStr)
deriving DecidableEq

def Effect.change : Effect → Option Change
  | .subscribe channels | .resume channels => some (.register channels)
  | .unsubscribe channels => some (.unregister channels)
  | _ => none

def Change.onSet (s : SubscriptionSet) : Change → SubscriptionSet
  | .register channels => s.addMultiple channels
  | .unregister channels => s.removeMultiple channels

def Change.onIndex (idx : SubscriptionIndex) (c : Ref) : Change → SubscriptionIndex
  | .register channels => idx.addMultiple channels c
  | .unregister channels => idx.removeMultiple channels c

def Change.onEntries (m : Entries) (c : Ref) : Change → Entries
  | .register channels => m.addMultiple channels c
  | .unregister channels => m.removeMultiple channels c

def Session.apply (c : Session) (x : Change) : Session :=
  { c with subscriptions := x.onSet c.subscriptions, index := x.onIndex c.index c.ref }

theorem SubscriptionSet.count_addMultiple_le (s : SubscriptionSet) (chs : List GoStr) :
    (s.addMultiple chs).count ≤ s.count + (chs.filter fun ch => !s.has ch).length := by
  have hs : (s.addMultiple chs).channels ⊆ s.channels ++ chs.filter fun ch => !s.has ch := by
    intro ch hch
    rcases SubscriptionSet.mem_addMultiple.1 hch with hold | hn
    · exact mem_append_left _ hold
    · by_cases hh : ch ∈ s.channels
      · exact mem_append_left _ hh
      · exact mem_append_right _ (mem_filter.2 ⟨hn, by simp [SubscriptionSet.has, hh]⟩)
  have hle := (subperm_of_subset (s.addMultiple chs).nodup hs).length_le
  simpa [SubscriptionSet.count] using hle

theorem authorizeEntry_fits {cfg : Config} {b : Backend} {c : Session} {acc : Cursor} (entry : GoStr × GoStr)
    (h : (acc.authorized.filter fun ch => !c.subscriptions.has ch).length ≤ acc.newChannels ∧
      (acc.newChannels = 0 ∨ (c.subscriptions.count + acc.newChannels : Int) ≤ cfg.maxChannelsPerClient)) :
    ((authorizeEntry cfg b c acc entry).authorized.filter fun ch => !c.subscriptions.has ch).length ≤
        (authorizeEntry cfg b c acc entry).newChannels ∧
      ((authorizeEntry cfg b c acc entry).newChannels = 0 ∨
        (c.subscriptions.count + (authorizeEntry cfg b c acc entry).newChannels : Int) ≤ cfg.maxChannelsPerClient) := by
  obtain ⟨channel, posStr⟩ := entry
  simp only [authorizeEntry]
  split
  · exact h
  split
  · exact h
  split
  · exact h
  by_cases hh : c.subscriptions.has channel = true
  · simpa [hh, Cursor.add, filter_append] using h
  by_cases hf : cfg.maxChannelsPerClient ≤ c.subscriptions.count + acc.newChannels
  · simpa [hh, hf] using h
  · simp only [hh, hf, if_false, Bool.false_eq_true, Cursor.add, filter_append, length_append]
    refine ⟨?_, .inr ?_⟩
    · have ho : ([channel].filter fun ch => !c.subscriptions.has ch).length ≤ 1 := length_filter_le _ _
      omega
    · push_cast
      omega

theorem authorizeLastPos_fits (cfg : Config) (b : Backend) (c : Session) (lastPos : Json.StrMap)
    (hcp : (c.subscriptions.count : Int) ≤ cfg.maxChannelsPerClient) :
    ((c.subscriptions.addMultiple (authorizeLastPos cfg b c lastPos).authorized).count : Int) ≤ cfg.maxChannelsPerClient := by
  have hf : ∀ (l : Json.StrMap) (acc : Cursor),
      (acc.authorized.filter fun ch => !c.subscriptions.has ch).length ≤ acc.newChannels ∧
        (acc.newChannels = 0 ∨ (c.subscriptions.count + acc.newChannels : Int) ≤ cfg.maxChannelsPerClient) →
      ((l.foldl (authorizeEntry cfg b c) acc).authorized.filter fun ch => !c.subscriptions.has ch).length ≤
          (l.foldl (authorizeEntry cfg b c) acc).newChannels ∧
        ((l.foldl (authorizeEntry cfg b c) acc).newChannels = 0 ∨
          (c.subscriptions.count + (l.foldl (authorizeEntry cfg b c) acc).newChannels : Int) ≤ cfg.maxChannelsPerClient) := by
    intro l
    induction l with
    | nil => exact fun _ h => h
    | cons e l ih => exact fun acc h => ih _ (authorizeEntry_fits e h)
  obtain ⟨hc, hft⟩ := hf lastPos .empty ⟨by simp [Cursor.empty], .inl rfl⟩
  have hle := c.subscriptions.count_addMultiple_le (authorizeLastPos cfg b c lastPos).authorized
  rw [authorizeLastPos] at hle ⊢
  rcases hft with hz | hr <;> omega

def Changes (cfg : Config) (c : Session) (r : Session × List Effect) : Prop :=
  (r.1 = c ∧ r.2.filterMap Effect.change = []) ∨
    ∃ x, r.1 = c.apply x ∧ r.2.filterMap Effect.change = [x] ∧
      ((c.subscriptions.count : Int) ≤ cfg.maxChannelsPerClient →
        ((x.onSet c.subscriptions).count : Int) ≤ cfg.maxChannelsPerClient)

theorem changes_none {cfg : Config} {c : Session} {es : List Effect} (h : ∀ e ∈ es, e.change = none) : Changes cfg c (c, es) :=
  .inl ⟨rfl, filterMap_eq_nil_iff.2 h⟩

theorem SubscriptionSet.count_removeMultiple_le (s : SubscriptionSet) (chs : List GoStr) :
    (s.removeMultiple chs).count ≤ s.count := by
  have hs : (s.removeMultiple chs).channels ⊆ s.channels := fun ch hch => (SubscriptionSet.mem_removeMultiple.1 hch).1
  exact (subperm_of_subset (s.removeMultiple chs).nodup hs).length_le

attribute [local simp] sendError Effect.change

section
variable (cfg : Config)

theorem handleSubscribe_changes (c : Session) (data : GoStr) : Changes cfg c (handleSubscribe cfg c data) := by
  unfold handleSubscribe
  split
  · exact changes_none (by simp)
  next d _ =>
  split
  · next e hrq =>
    refine changes_none fun e' he' => ?_
    rw [mem_singleton.1 he']
    -- the request is refused with an error of one of two forms
    unfold requestedChannels at hrq
    split at hrq
    · cases hrq
    split at hrq
    · cases hrq
      rfl
    · split at hrq
      · cases hrq
        rfl
      · cases hrq
  · next channels _ =>
    split
    · exact changes_none (by simp)
    dsimp only
    split
    · exact changes_none (by simp)
    · next hr =>
      refine .inr ⟨.register channels, rfl, ?_, fun _ => ?_⟩
      · cases d.history <;> simp
      · have hle := c.subscriptions.count_addMultiple_le channels
        simp only [Change.onSet]
        omega

theorem handleUnsubscribe_changes (c : Session) (data : GoStr) : Changes cfg c (handleUnsubscribe c data) := by
  unfold handleUnsubscribe
  split
  · exact changes_none (by simp)
  · next d _ =>
    refine .inr ⟨.unregister d.channels.items, rfl, by simp, fun hc => ?_⟩
    have hle := c.subscriptions.count_removeMultiple_le d.channels.items
    simp only [Change.onSet]
    omega

theorem handleReconnect_changes (inp : ReplayInput) (c : Session) (data : GoStr) :
    Changes cfg c (handleReconnect cfg inp c data) := by
  unfold handleReconnect
  split
  · exact changes_none (by simp)
  next req _ =>
  split
  · exact changes_none (by simp)
  next b _ =>
  dsimp only
  have hc := authorizeLastPos_fits cfg b c (inp.iterate req.lastPos)
  generalize authorizeLastPos cfg b c (inp.iterate req.lastPos) = cursor at hc
  split
  · exact changes_none (by simp)
  split
  · exact .inr ⟨.register cursor.authorized, rfl, by simp, hc⟩
  refine .inr ⟨.register cursor.authorized, rfl, ?_, hc⟩
  have hs : ((replayedToClient cfg inp cursor.authorized).map fun m => Effect.replayed m.1 m.2).filterMap
      Effect.change = [] := by
    refine filterMap_eq_nil_iff.2 fun e he => ?_
    obtain ⟨m, _, rfl⟩ := mem_map.1 he
    rfl
  simp only [cons_append, filterMap_cons, filterMap_append, Effect.change, hs]
  rfl

theorem handleClientPublish_no_change (inp : MessageInput) (data : GoStr) :
    (handleClientPublish cfg inp data).filterMap Effect.change = [] := by
  unfold handleClientPublish
  repeat' split
  all_goals simp [sendPublishError]

/-- **What a message changes**: nothing, or the client's set and the index by the same call; the set stays within the cap. -/
theorem handleClientMessage_changes (inp : MessageInput) (c : Session) (data : GoStr) :
    Changes cfg c (handleClientMessage cfg inp c data) := by
  unfold handleClientMessage
  split
  · exact changes_none (by simp)
  next req _ =>
  split
  · exact handleReconnect_changes cfg inp.replay c req.data
  split
  · exact changes_none (by simp)
  split
  · exact handleSubscribe_changes cfg c req.data
  split
  · exact handleUnsubscribe_changes cfg c req.data
  split
  · exact changes_none (by simp)
  split
  · exact changes_none (by simp)
  split
  · exact .inl ⟨rfl, handleClientPublish_no_change cfg inp req.data⟩
  · exact changes_none (by simp)

end

/-! ## The server -/

namespace Coherence

inductive Transport
  | websocket
  | grpcStream
deriving DecidableEq

structure Client where
  transport : Transport
  tenantID : GoStr
  subscriptions : SubscriptionSet

structure State where
  index : Entries
  clients : Map Ref Client

inductive Act
  | connect (c : Ref) (tenantID : GoStr)
  | message (c : Ref) (inp : MessageInput) (data : GoStr)
  | openStream (c : Ref) (tenantID : GoStr) (channels : List GoStr) (hook : Bool)
  | disconnect (c : Ref)

def init : State := ⟨Map.empty, Map.empty⟩
def Client.session (cl : Client) (c : Ref) : Session := ⟨c, cl.tenantID, cl.subscriptions, .empty⟩

def step (cfg : Config) (s : State) : Act → Option State
  | .connect c tenantID =>
    match s.clients c with
    | some _ => none
    | none => some { s with clients := s.clients.set c ⟨.websocket, tenantID, .empty⟩ }
  | .message c inp data =>
    match s.clients c with
    | none => none
    | some cl =>
      if cl.transport = .websocket then
        let (session, effects) := handleClientMessage cfg inp (cl.session c) data
        some {
          index := (effects.filterMap Effect.change).foldl (fun m x => x.onEntries m c) s.index
          clients := s.clients.set c { cl with subscriptions := session.subscriptions } }
      else none
  | .openStream c tenantID channels hook =>
    match s.clients c with
    | some _ => none
    | none =>
      if channels = [] then none
      else
        -- one pass over the channels fills both structures
        let subscriptions := channels.foldl (fun set ch => set.add ch) .empty
        let index := channels.foldl (fun m ch => m.add ch c) s.index
        if hook then some { index := index, clients := s.clients.set c ⟨.grpcStream, tenantID, subscriptions⟩ }
        else some { s with index := index.removeMultiple subscriptions.channels c }
  | .disconnect c =>
    match s.clients c with
    | none => none
    | some cl => some { index := s.index.removeMultiple cl.subscriptions.channels c, clients := s.clients.delete c }

structure Coherent (cfg : Config) (s : State) : Prop where
  listed : ∃ idx : SubscriptionIndex, s.index.Reads idx ∧
    ∀ ch c, c ∈ idx.get ch ↔ ∃ cl, s.clients c = some cl ∧ ch ∈ cl.subscriptions.channels
  pruned : s.index.Pruned
  capped : ∀ c cl, s.clients c = some cl → cl.transport = .websocket →
    (cl.subscriptions.count : Int) ≤ cfg.maxChannelsPerClient

theorem Coherent.init (cfg : Config) : Coherent cfg init where
  listed := ⟨.empty, fun _ => rfl, by simp [Coherence.init, Map.empty, SubscriptionIndex.get, SubscriptionIndex.empty]⟩
  pruned ch := by simp [Coherence.init, Map.empty]
  capped := by simp [Coherence.init, Map.empty]

variable {c : Ref} {cfg : Config} {s : State} {cl : Client}

theorem Coherent.connect (hc : 0 ≤ cfg.maxChannelsPerClient) (h : Coherent cfg s) (hf : s.clients c = none)
    (transport : Transport) (tenantID : GoStr) :
    Coherent cfg { s with clients := s.clients.set c ⟨transport, tenantID, .empty⟩ } := by
  obtain ⟨idx, hr, hm⟩ := h.listed
  refine ⟨⟨idx, hr, fun ch d => ?_⟩, h.pruned, fun d cl hd _ => ?_⟩
  · rw [hm]
    by_cases hdc : d = c
    · subst hdc
      simp [hf, Map.set_self, SubscriptionSet.empty]
    · simp [Map.set_of_ne _ _ hdc]
  · by_cases hdc : d = c
    · subst hdc
      simp only [Map.set_self, Option.some.injEq] at hd
      simp only [← hd, SubscriptionSet.count, SubscriptionSet.empty, length_nil]
      exact hc
    · simp only [Map.set_of_ne _ _ hdc] at hd
      exact h.capped d cl hd (by assumption)

theorem Coherent.change (h : Coherent cfg s) (hc : s.clients c = some cl) (x : Change)
    (hcp : cl.transport = .websocket → ((x.onSet cl.subscriptions).count : Int) ≤ cfg.maxChannelsPerClient) :
    Coherent cfg { index := x.onEntries s.index c
                   clients := s.clients.set c { cl with subscriptions := x.onSet cl.subscriptions } } := by
  obtain ⟨idx, hr, hm⟩ := h.listed
  refine ⟨⟨x.onIndex idx c, ?_, fun ch d => ?_⟩, ?_, fun d cl' hd hws => ?_⟩
  · cases x with
    | register channels => exact hr.addMultiple
    | unregister channels => exact hr.removeMultiple
  · have hold := hm ch d
    by_cases hdc : d = c
    · subst hdc
      simp only [hc, Option.some.injEq, exists_eq_left'] at hold
      cases x with
      | register channels =>
        simp [Change.onIndex, Change.onSet, SubscriptionIndex.mem_addMultiple, SubscriptionSet.mem_addMultiple, hold,
          Map.set_self]
      | unregister channels =>
        simp [Change.onIndex, Change.onSet, SubscriptionIndex.mem_removeMultiple, SubscriptionSet.mem_removeMultiple,
          hold, Map.set_self]
    · simp only [Map.set_of_ne _ _ hdc]
      rw [← hold]
      cases x with
      | register channels => simp [Change.onIndex, SubscriptionIndex.mem_addMultiple, hdc]
      | unregister channels => simp [Change.onIndex, SubscriptionIndex.mem_removeMultiple, hdc]
  · cases x with
    | register channels => exact h.pruned.addMultiple
    | unregister channels => exact h.pruned.removeMultiple
  · by_cases hdc : d = c
    · subst hdc
      simp only [Map.set_self] at hd
      cases hd
      exact hcp hws
    · simp only [Map.set_of_ne _ _ hdc] at hd
      exact h.capped d cl' hd hws

theorem Coherent.disconnect (h : Coherent cfg s) (hc : s.clients c = some cl) :
    Coherent cfg { index := s.index.removeMultiple cl.subscriptions.channels c, clients := s.clients.delete c } := by
  obtain ⟨idx, hr, hm⟩ := h.listed
  refine ⟨⟨idx.removeMultiple cl.subscriptions.channels c, hr.removeMultiple, fun ch d => ?_⟩,
    h.pruned.removeMultiple, fun d cl' hd hws => ?_⟩
  · rw [SubscriptionIndex.mem_removeMultiple, hm]
    by_cases hdc : d = c
    · subst hdc
      simp [hc, Map.delete_self]
    · simp [Map.delete_of_ne _ hdc, hdc]
  · by_cases hdc : d = c
    · subst hdc
      simp [Map.delete_self] at hd
    · simp only [Map.delete_of_ne _ hdc] at hd
      exact h.capped d cl' hd hws

theorem set_set_delete {κ υ : Type} [DecidableEq κ] {m : Map κ υ} {k : κ} (h : m k = none) (v w : υ) :
    ((m.set k v).set k w).delete k = m := by
  funext k'
  by_cases hk : k' = k
  · subst hk
    rw [Map.delete_self, h]
  · rw [Map.delete_of_ne _ hk, Map.set_of_ne _ _ hk, Map.set_of_ne _ _ hk]

theorem Coherent.step (hcf : 0 ≤ cfg.maxChannelsPerClient) {s' : State} (h : Coherent cfg s) {a : Act}
    (hs : step cfg s a = some s') : Coherent cfg s' := by
  cases a with simp only [Coherence.step] at hs
  | connect c tenantID =>
    cases hc : s.clients c with
    | some cl => simp [hc] at hs
    | none =>
      simp only [hc] at hs
      cases hs
      exact h.connect hcf hc .websocket tenantID
  | message c inp data =>
    cases hc : s.clients c with
    | none => simp [hc] at hs
    | some cl =>
      simp only [hc, guarded] at hs
      obtain ⟨hws, rfl⟩ := hs
      rcases handleClientMessage_changes cfg inp (cl.session c) data with ⟨hsm, hn⟩ | ⟨x, hon, hx, hcp⟩
      · have hset : s.clients.set c { cl with subscriptions := cl.subscriptions } = s.clients := by
          simp [Map.set, ← hc]
        simp only [hsm, hn, foldl_nil]
        rw [show (cl.session c).subscriptions = cl.subscriptions from rfl, hset]
        exact h
      · simp only [hon, hx, foldl_cons, foldl_nil]
        exact h.change hc x fun _ => hcp (h.capped c cl hc hws)
  | openStream c tenantID channels hok =>
    cases hc : s.clients c with
    | some cl => simp [hc] at hs
    | none =>
      simp only [hc, Option.ite_none_left_eq_some] at hs
      obtain ⟨_, hs⟩ := hs
      -- the stream is connected with an empty set, and its channels are registered
      have ho := h.connect hcf hc .grpcStream tenantID
      have hr := ho.change (Map.set_self _ _ _) (.register channels) (by simp)
      cases hok with
      | true =>
        simp only [if_true] at hs
        cases hs
        have hset : (s.clients.set c ⟨.grpcStream, tenantID, .empty⟩).set c
            ⟨.grpcStream, tenantID, (Change.register channels).onSet .empty⟩ =
              s.clients.set c ⟨.grpcStream, tenantID, (Change.register channels).onSet .empty⟩ := by
          simp [Map.set]
        simp only [hset] at hr
        exact hr
      | false =>
        simp only [Bool.false_eq_true, if_false] at hs
        cases hs
        have hg := hr.disconnect (Map.set_self _ _ _)
        simp only [set_set_delete hc] at hg
        exact hg
  | disconnect c =>
    cases hc : s.clients c with
    | none => simp [hc] at hs
    | some cl =>
      simp only [hc] at hs
      cases hs
      exact h.disconnect hc

/-- **The index and the clients agree** between operations: membership, no repetitions, no empty entries, and at most
`MaxChannelsPerClient` channels for a WebSocket client. -/
theorem index_coherent (cfg : Config) (hcfg : 1 ≤ cfg.maxChannelsPerClient) (as : List Act) (s : State)
    (hrun : run (step cfg) init as = some s) :
    (∀ c cl ch, s.clients c = some cl → ((s.index ch).getD []).count c = if ch ∈ cl.subscriptions.channels then 1 else 0) ∧
      (∀ c ch, s.clients c = none → c ∉ (s.index ch).getD []) ∧
      (∀ ch, s.index ch ≠ some []) ∧
      ∀ c cl, s.clients c = some cl → cl.transport = .websocket →
        (cl.subscriptions.count : Int) ≤ cfg.maxChannelsPerClient := by
  have h : Coherent cfg s := run_invariant (Coherent cfg) (fun _ _ _ h hs => h.step (by omega) hs) (.init cfg) hrun
  obtain ⟨idx, hreads, hmem⟩ := h.listed
  refine ⟨fun c cl ch hc => ?_, fun c ch hc => ?_, h.pruned, h.capped⟩
  · rw [hreads ch]
    by_cases hch : ch ∈ cl.subscriptions.channels
    · rw [if_pos hch]
      exact count_eq_one_of_mem (idx.nodup ch) ((hmem ch c).2 ⟨cl, hc, hch⟩)
    · rw [if_neg hch]
      refine count_eq_zero.2 fun hin => hch ?_
      obtain ⟨cl', hc', hch'⟩ := (hmem ch c).1 hin
      rw [hc] at hc'
      cases hc'
      exact hch'
  · rw [hreads ch, hmem]
    simp [hc]

def duplicateSubscribe : List Act :=
  [.connect 0 (str "acme"),
    .message 0 ⟨⟨[], false, [], 0⟩, true, .ok []⟩
      (str "\x7b\"type\":\"subscribe\",\"data\":\x7b\"channels\":[\"acme.news\",\"acme.news\"]\x7d\x7d"),
    .openStream 1 (str "acme") [str "acme.news", str "acme.trade"] false]

theorem index_coherent_duplicateSubscribe :
    ∃ s, run (step ⟨none, 2, 0, false⟩) init duplicateSubscribe = some s ∧ (s.index (str "acme.news")).getD [] = [0] ∧
      (s.index (str "acme.trade")).isNone = true ∧ (∀ ch, s.index ch ≠ some []) ∧
      ∀ c cl, s.clients c = some cl → cl.transport = .websocket → (cl.subscriptions.count : Int) ≤ 2 := by
  have hends : (run (step ⟨none, 2, 0, false⟩) init duplicateSubscribe).map
      (fun s => ((s.index (str "acme.news")).getD [], (s.index (str "acme.trade")).isNone)) = some ([0], true) := by
    decide +kernel
  obtain ⟨s, hrun, hend⟩ := Option.map_eq_some_iff.1 hends
  obtain ⟨hnews, htrade⟩ := Prod.mk.inj hend
  obtain ⟨_, _, hpruned, hcapped⟩ := index_coherent ⟨none, 2, 0, false⟩ (by decide) _ s hrun
  exact ⟨s, hrun, hnews, htrade, hpruned, hcapped⟩

end Coherence
end Sukko.Server
