import Sukko.Kafka.Record
import Sukko.ProvApi.TenantConfig
import Sukko.Provisioning.RoutingRules
import Sukko.Server.Subscriptions
import Sukko.Shared.Channels
import Sukko.Shared.Protocol
/-
# Reconnecting

The order in which the source ranges over `last_pos` is an input.
-/

namespace Sukko.Server
open GoStr Channels Json Protocol ProvApi List Option

/-! ## Positions -/

def posMaxPartitionPlusOne : Int := 1000000
def dash : UInt8 := 45

/-- See `server/history/codec.go:34`. -/
def decodePos (s : GoStr) : Option (Int × Int) :=
  match cut s dash with
  | none => none
  | some (left, right) =>
    match parseInt left with
    | none => none
    | some ms =>
      if ms ≤ 0 ∨ posMaxPartitionPlusOne ≤ ms then none
      else
        match parseInt right with
        | none => none
        | some seq => if seq < 0 then none else some (ms - 1, seq)

def wrapInt64 (x : Int) : Int := (x + 2 ^ 63) % 2 ^ 64 - 2 ^ 63

/-! ## The backend -/

inductive Backend
  | direct
  | kafka (topicNamespace : GoStr) (pool : Bool) (rulesProvider : Option Provider)

/-- See `server/kafka/producer.go:551`. -/
def extractTenant (channel : GoStr) : Option GoStr :=
  match channel.indexByte dot with
  | none | some 0 => none
  | some i => some (channel.take i)

def ingressTopic (rules : List Provisioning.RoutingRule) (channel : GoStr) : Option GoStr :=
  (rules.find? fun r =>
    (match Routing.matchRoutingPattern r.pattern channel with
      | .ok matched => matched
      | .error _ => false) && r.ingressTopic != []).map (·.ingressTopic)

/-- Models `ChannelTopic` of the two backends (`server/backend/kafkabackend/kafkabackend.go:605`). -/
def Backend.channelTopic (b : Backend) (channel : GoStr) : Option GoStr :=
  match b with
  | .direct => none
  | .kafka topicNamespace pool rulesProvider =>
    match rulesProvider with
    | none => none
    | some p =>
      if !pool || !p.snapshotReceived then none
      else
        match extractTenant channel with
        | none => none
        | some tenant =>
          let suffix := ((p.getRoutingSnapshot tenant).bind (ingressTopic · channel)).getD Provisioning.defaultTopicSuffix
          some (Kafka.buildTopicName topicNamespace tenant suffix)

/-! ## Authorization of a cursor -/

structure Config where
  backend : Option Backend
  maxChannelsPerClient : Int
  maxReplayMessages : Nat
  history : Bool

structure Session where
  ref : Ref
  tenantID : GoStr
  subscriptions : SubscriptionSet
  index : SubscriptionIndex

structure Cursor where
  positions : List ((GoStr × Int) × Int)
  authorized : List GoStr
  newChannels : Nat
deriving DecidableEq

def Cursor.empty : Cursor := ⟨[], [], 0⟩

def lowerPosition (positions : List ((GoStr × Int) × Int)) (key : GoStr × Int) (next : Int) :
    List ((GoStr × Int) × Int) :=
  match positions.lookup key with
  | none => positions ++ [(key, next)]
  | some existing =>
    if next < existing then positions.map fun p => if p.1 = key then (key, next) else p else positions

def Cursor.add (acc : Cursor) (channel topic : GoStr) (partition offset : Int) (new : Nat) : Cursor where
  positions := lowerPosition acc.positions (topic, partition) (wrapInt64 (offset + 1))
  authorized := acc.authorized ++ [channel]
  newChannels := acc.newChannels + new

/-- Part of `authorizeLastPos` (`server/replay_shared.go:27`). -/
def authorizeEntry (cfg : Config) (b : Backend) (c : Session) (acc : Cursor) (entry : GoStr × GoStr) : Cursor :=
  let (channel, posStr) := entry
  if !validateChannelTenant channel c.tenantID then acc
  else
    match decodePos posStr with
    | none => acc
    | some (partition, offset) =>
      match b.channelTopic channel with
      | none => acc
      | some topic =>
        if c.subscriptions.has channel then acc.add channel topic partition offset 0
        else if cfg.maxChannelsPerClient ≤ c.subscriptions.count + acc.newChannels then acc
        else acc.add channel topic partition offset 1

/-- See `server/replay_shared.go:27`. -/
def authorizeLastPos (cfg : Config) (b : Backend) (c : Session) (lastPos : StrMap) : Cursor :=
  lastPos.foldl (authorizeEntry cfg b c) .empty

/-- The entry names a channel of the tenant at a position that can be read, and there is room for it. -/
def Replayable (cfg : Config) (b : Backend) (c : Session) (entry : GoStr × GoStr) : Prop :=
  validateChannelTenant entry.1 c.tenantID = true ∧ (decodePos entry.2).isSome = true ∧
    (b.channelTopic entry.1).isSome = true ∧
    (c.subscriptions.has entry.1 = true ∨ (c.subscriptions.count : Int) < cfg.maxChannelsPerClient)

instance (cfg : Config) (b : Backend) (c : Session) (entry : GoStr × GoStr) : Decidable (Replayable cfg b c entry) :=
  inferInstanceAs (Decidable (_ ∧ _))

variable {channel : GoStr}

section Authorize
variable {cfg : Config} {b : Backend} {c : Session}

theorem authorizeEntry_cases (cfg : Config) (b : Backend) (c : Session) (acc : Cursor) (entry : GoStr × GoStr) :
    authorizeEntry cfg b c acc entry = acc ∨
    (Replayable cfg b c entry ∧ ∃ topic partition offset new,
      decodePos entry.2 = some (partition, offset) ∧ b.channelTopic entry.1 = some topic ∧
        authorizeEntry cfg b c acc entry = acc.add entry.1 topic partition offset new) := by
  obtain ⟨channel, posStr⟩ := entry
  simp only [authorizeEntry]
  split
  · exact Or.inl rfl
  rename_i hte
  split
  · exact Or.inl rfl
  rename_i partition offset hp
  split
  · exact Or.inl rfl
  rename_i topic ht
  have htn : validateChannelTenant channel c.tenantID = true := by simpa using hte
  split
  · rename_i hh
    refine Or.inr ⟨⟨htn, ?_, ?_, Or.inl hh⟩, topic, partition, offset, 0, hp, ht, rfl⟩
    · rw [hp]; rfl
    · rw [ht]; rfl
  · split
    · exact Or.inl rfl
    · rename_i hr
      refine Or.inr ⟨⟨htn, ?_, ?_, Or.inr ?_⟩, topic, partition, offset, 1, hp, ht, rfl⟩
      · rw [hp]; rfl
      · rw [ht]; rfl
      · have : (0 : Int) ≤ acc.newChannels := Int.natCast_nonneg _
        omega

theorem authorizeEntry_of_replayable {entry : GoStr × GoStr} (h : Replayable cfg b c entry) :
    entry.1 ∈ (authorizeEntry cfg b c .empty entry).authorized := by
  obtain ⟨channel, posStr⟩ := entry
  obtain ⟨htn, hp, ht, hr⟩ := h
  obtain ⟨⟨partition, offset⟩, hp⟩ := isSome_iff_exists.1 hp
  obtain ⟨topic, ht⟩ := isSome_iff_exists.1 ht
  dsimp only at htn hp ht hr
  simp only [authorizeEntry, htn, hp, ht, Bool.not_true, Bool.false_eq_true, if_false]
  split
  · simp [Cursor.add]
  · rename_i hh
    have hlt := hr.resolve_left hh
    rw [if_neg]
    · simp [Cursor.add]
    · simp only [Cursor.empty]
      omega

variable {lastPos : StrMap}

theorem foldl_authorizeEntry {P : Cursor → Prop} {acc : Cursor} (h0 : P acc)
    (ha : ∀ acc, ∀ e ∈ lastPos, Replayable cfg b c e → P acc → ∀ topic partition offset new,
      decodePos e.2 = some (partition, offset) → b.channelTopic e.1 = some topic →
        P (acc.add e.1 topic partition offset new)) : P (lastPos.foldl (authorizeEntry cfg b c) acc) := by
  induction lastPos generalizing acc with
  | nil => exact h0
  | cons e lastPos ih =>
    refine ih ?_ fun acc e' he' => ha acc e' (mem_cons_of_mem e he')
    rcases authorizeEntry_cases cfg b c acc e with he | ⟨hr, topic, partition, offset, new, hp, ht, he⟩
    · rw [he]
      exact h0
    · rw [he]
      exact ha acc e mem_cons_self hr h0 topic partition offset new hp ht

/-- **What is authorized is replayable**, in every order. -/
theorem mem_authorizeLastPos (h : channel ∈ (authorizeLastPos cfg b c lastPos).authorized) :
    ∃ e ∈ lastPos, e.1 = channel ∧ Replayable cfg b c e := by
  have ha : ∀ ch ∈ (authorizeLastPos cfg b c lastPos).authorized, ∃ e ∈ lastPos, e.1 = ch ∧ Replayable cfg b c e := by
    refine foldl_authorizeEntry (P := fun acc => ∀ ch ∈ acc.authorized, ∃ e ∈ lastPos, e.1 = ch ∧ Replayable cfg b c e)
      (by simp [Cursor.empty]) ?_
    intro acc e he hr hac topic partition offset new _ _
    rw [Cursor.add, forall_mem_append]
    refine ⟨hac, fun ch hch => ?_⟩
    rw [mem_singleton.1 hch]
    exact ⟨e, he, rfl, hr⟩
  exact ha channel h

theorem authorizeLastPos_cons {e : GoStr × GoStr} (h : Replayable cfg b c e) :
    e.1 ∈ (authorizeLastPos cfg b c (e :: lastPos)).authorized := by
  rw [authorizeLastPos, foldl_cons]
  refine foldl_authorizeEntry (P := fun acc => e.1 ∈ acc.authorized) (authorizeEntry_of_replayable h) ?_
  intro acc e' _ _ ha _ _ _ _ _ _
  exact mem_append_left _ ha

theorem lowerPosition_ne_nil (positions : List ((GoStr × Int) × Int)) (key : GoStr × Int) (next : Int) :
    lowerPosition positions key next ≠ [] := by
  unfold lowerPosition
  split
  · simp
  rename_i existing hex
  have hne : positions ≠ [] := by
    rintro rfl
    cases hex
  split
  · simpa using hne
  · exact hne

theorem positions_ne_nil (h : (authorizeLastPos cfg b c lastPos).authorized ≠ []) :
    (authorizeLastPos cfg b c lastPos).positions ≠ [] := by
  refine foldl_authorizeEntry (P := fun acc => acc.authorized ≠ [] → acc.positions ≠ []) (fun h => absurd rfl h) ?_ h
  intro acc e _ _ _ _ _ _ _ _ _ _
  exact lowerPosition_ne_nil _ _ _

theorem lookup_cons_ite (key key' : GoStr × Int) (start : Int) (positions : List ((GoStr × Int) × Int)) :
    ((key, start) :: positions).lookup key' = if key' = key then some start else positions.lookup key' := by
  rw [lookup_cons]
  by_cases h : key' = key
  · rw [if_pos h, beq_iff_eq.2 h]
  · rw [if_neg h, beq_false_of_ne h]

theorem lookup_map_set (positions : List ((GoStr × Int) × Int)) (key key' : GoStr × Int) (next : Int) :
    (positions.map fun p => if p.1 = key then (key, next) else p).lookup key' =
      if key' = key then (positions.lookup key).map fun _ => next else positions.lookup key' := by
  induction positions with
  | nil => simp
  | cons p positions ih =>
    obtain ⟨k, start⟩ := p
    rw [map_cons]
    by_cases hk : k = key
    · rw [if_pos hk, hk, lookup_cons_ite, lookup_cons_ite, lookup_cons_ite, ih]
      by_cases hk' : key' = key <;> simp [hk']
    · rw [if_neg hk, lookup_cons_ite, lookup_cons_ite, lookup_cons_ite, ih, if_neg (Ne.symm hk)]
      by_cases hk' : key' = key
      · rw [if_neg (by rw [hk']; exact Ne.symm hk), if_pos hk', if_pos hk']
      · rw [if_neg hk', if_neg hk']

theorem lookup_lowerPosition (positions : List ((GoStr × Int) × Int)) (key key' : GoStr × Int) (next : Int) :
    (lowerPosition positions key next).lookup key' =
      if key' = key then some (((positions.lookup key).map (min next)).getD next) else positions.lookup key' := by
  unfold lowerPosition
  split
  · rename_i hn
    rw [lookup_append, lookup_cons_ite]
    by_cases hk : key' = key <;> simp [hk, hn]
  · rename_i existing hex
    split
    · rename_i hlt
      rw [lookup_map_set, hex, map_some, map_some, getD_some, min_eq_left hlt.le]
    · rename_i hle
      by_cases hk : key' = key
      · rw [if_pos hk, hk, hex, map_some, getD_some, min_eq_right (not_lt.1 hle)]
      · rw [if_neg hk]

theorem mem_of_lookup {positions : List ((GoStr × Int) × Int)} {key : GoStr × Int} {start : Int}
    (h : positions.lookup key = some start) : (key, start) ∈ positions := by
  obtain ⟨before, after, heq, -⟩ := lookup_eq_some_iff.1 h
  rw [heq]
  exact mem_append_right _ mem_cons_self

theorem wrapInt64_le {x : Int} (h : -2 ^ 63 ≤ x) : wrapInt64 x ≤ x := by
  unfold wrapInt64
  omega

/-- **The replay of a partition starts at or before the next message of each of its channels.** -/
theorem position_le (h : channel ∈ (authorizeLastPos cfg b c lastPos).authorized) :
    ∃ pos topic partition offset start, (channel, pos) ∈ lastPos ∧ decodePos pos = some (partition, offset) ∧
      b.channelTopic channel = some topic ∧
      (authorizeLastPos cfg b c lastPos).positions.lookup (topic, partition) = some start ∧
      start ≤ wrapInt64 (offset + 1) := by
  refine foldl_authorizeEntry (P := fun acc => ∀ ch ∈ acc.authorized, ∃ pos topic partition offset start,
    (ch, pos) ∈ lastPos ∧ decodePos pos = some (partition, offset) ∧ b.channelTopic ch = some topic ∧
      acc.positions.lookup (topic, partition) = some start ∧ start ≤ wrapInt64 (offset + 1)) (by simp [Cursor.empty]) ?_
    channel h
  intro acc e he _ ha topic partition offset new hps htp ch hch
  rcases mem_append.1 hch with hch | hch
  · -- the position of an earlier channel only gets lower
    obtain ⟨pos', topic', partition', offset', start, hm, hp, ht, hl, hle⟩ := ha ch hch
    simp only [Cursor.add, lookup_lowerPosition]
    by_cases hk : (topic', partition') = (topic, partition)
    · rw [hk] at hl
      refine ⟨pos', topic', partition', offset', _, hm, hp, ht, if_pos hk, ?_⟩
      rw [hl, map_some, getD_some]
      exact (min_le_right _ _).trans hle
    · exact ⟨pos', topic', partition', offset', start, hm, hp, ht, by rw [if_neg hk, hl], hle⟩
  · rw [mem_singleton.1 hch]
    simp only [Cursor.add, lookup_lowerPosition]
    refine ⟨e.2, topic, partition, offset, _, he, hps, htp, if_pos rfl, ?_⟩
    cases acc.positions.lookup (topic, partition) with
    | none => exact le_refl _
    | some existing => exact min_le_left _ _

end Authorize

/-! ## The handler -/

inductive Effect
  | error (errType : GoStr) (code : GoStr) (message : GoStr)
  | ack (ackType : GoStr) (channels : List GoStr) (count : Nat)
  | reconnectAck (messagesReplayed : Nat) (message : GoStr)
  | publishAck (channel mid : GoStr)
  | pong
  | subscribe (channels : List GoStr)
  | unsubscribe (channels : List GoStr)
  | resume (channels : List GoStr)
  | publish (channel data : GoStr)
  | replayed (channel data : GoStr)
  | historyRequest (channel : GoStr) (limit : Int)
  | historyError (channel code message : GoStr)
  | historyMessage (data : GoStr)
  | replayRequest (data : GoStr)
deriving DecidableEq

def respTypeReconnectError : GoStr := str "reconnect_error"
def sendError (errType : GoStr) (code : ErrorCode) (message : String) : Effect := .error errType code.text (str message)

def Session.register (c : Session) (channels : List GoStr) : Session :=
  { c with subscriptions := c.subscriptions.addMultiple channels, index := c.index.addMultiple channels c.ref }

structure ReconnectData where
  clientID : GoStr
  lastPos : StrMap
deriving DecidableEq

def reconnectFields : List (StructField ReconnectData) :=
  [⟨"client_id".toList, fun v d => (decodeString v d.clientID).map fun s => { d with clientID := s }⟩,
   ⟨"last_pos".toList, fun v d => (decodeStrMap v d.lastPos).map fun m => { d with lastPos := m }⟩]

def unmarshalReconnect (data : GoStr) : Option ReconnectData := unmarshal reconnectFields ⟨[], []⟩ data

structure ReplayInput where
  order : StrMap
  failed : Bool
  records : List (GoStr × GoStr)
  room : Nat

def ReplayInput.iterate (inp : ReplayInput) (m : StrMap) : StrMap := if inp.order.isPerm m then inp.order else m

theorem ReplayInput.iterate_perm (inp : ReplayInput) (m : StrMap) : (inp.iterate m).Perm m := by
  unfold ReplayInput.iterate
  split
  · rename_i h
    exact isPerm_iff.1 h
  · exact List.Perm.refl m

/-- The filter and the cap of `ReplayFromOffsets` (`server/kafka/consumer.go:1444`), then the loop of
`replayAuthorizedToClient`; which records the brokers return is an input here (`Recovery` has the poll loop). -/
def replayedToClient (cfg : Config) (inp : ReplayInput) (authorized : List GoStr) : List (GoStr × GoStr) :=
  (((inp.records.filter (·.1 ∈ authorized)).take cfg.maxReplayMessages).filter fun m => (parse m.2).isSome).take inp.room

/-- See `server/handlers_message.go:274`. -/
def handleReconnect (cfg : Config) (inp : ReplayInput) (c : Session) (data : GoStr) : Session × List Effect :=
  match unmarshalReconnect data with
  | none => (c, [sendError respTypeReconnectError .invalidRequest "Invalid reconnect request format"])
  | some req =>
    match cfg.backend with
    | none => (c, [sendError respTypeReconnectError .notAvailable
        "Message replay not available (no backend configured)"])
    | some b =>
      let cursor := authorizeLastPos cfg b c (inp.iterate req.lastPos)
      if cursor.positions = [] then (c, [.reconnectAck 0 (str "No replayable channels")])
      else
        -- live delivery first, then the replay, so that the two overlap
        let c := c.register cursor.authorized
        if inp.failed then
          (c, [.resume cursor.authorized, sendError respTypeReconnectError .replayFailed "Message replay failed"])
        else
          let sent := replayedToClient cfg inp cursor.authorized
          (c, .resume cursor.authorized :: sent.map (fun m => .replayed m.1 m.2) ++
            [.reconnectAck sent.length (str "Replayed " ++ str (toString sent.length) ++ str " missed messages")])

def Effect.delivers : Effect → List GoStr
  | .subscribe channels | .resume channels => channels
  | .replayed channel _ => [channel]
  | _ => []

theorem mem_delivers_handleReconnect {cfg : Config} {inp : ReplayInput} {c : Session} {data : GoStr} {req : ReconnectData}
    {b : Backend} (hr : unmarshalReconnect data = some req) (hb : cfg.backend = some b) :
    (∃ e ∈ (handleReconnect cfg inp c data).2, channel ∈ e.delivers) ↔
      channel ∈ (authorizeLastPos cfg b c (inp.iterate req.lastPos)).authorized := by
  have hp : (authorizeLastPos cfg b c (inp.iterate req.lastPos)).authorized ≠ [] →
      (authorizeLastPos cfg b c (inp.iterate req.lastPos)).positions ≠ [] := positions_ne_nil
  have hs : ∀ m ∈ replayedToClient cfg inp (authorizeLastPos cfg b c (inp.iterate req.lastPos)).authorized,
      m.1 ∈ (authorizeLastPos cfg b c (inp.iterate req.lastPos)).authorized := by
    intro m hm
    have hm := mem_of_mem_take (mem_filter.1 (mem_of_mem_take hm)).1
    exact of_decide_eq_true (mem_filter.1 hm).2
  simp only [handleReconnect, hr, hb]
  generalize authorizeLastPos cfg b c (inp.iterate req.lastPos) = cursor at hp hs
  split
  · rename_i hn
    have ha : cursor.authorized = [] := by
      by_contra hne
      exact hp hne hn
    simp [Effect.delivers, ha]
  · split
    · simp [Effect.delivers, sendError]
    constructor
    · rintro ⟨e, he, hch⟩
      rcases mem_append.1 he with he | he
      · rcases mem_cons.1 he with rfl | he
        · exact hch
        · obtain ⟨m, hm, rfl⟩ := mem_map.1 he
          rw [mem_singleton.1 hch]
          exact hs m hm
      · rw [mem_singleton.1 he] at hch
        cases hch
    · intro hch
      exact ⟨.resume cursor.authorized, mem_append_left _ mem_cons_self, hch⟩

end Sukko.Server
