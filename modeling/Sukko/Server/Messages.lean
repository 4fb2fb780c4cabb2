import Sukko.Server.Reconnect
import Sukko.Shared.WebSocket
/-
# Messages of a client

The limiters, the backend's answers and the records of a replay are inputs.
-/

namespace Sukko.Server
open Channels Json Protocol WebSocket List

def msgTypeReconnect : GoStr := str "reconnect"
def msgTypeHeartbeat : GoStr := str "heartbeat"
def msgTypeHistory : GoStr := str "history"
def msgTypeReplay : GoStr := str "replay"
def msgTypeError : GoStr := str "error"
def respTypeSubscriptionAck : GoStr := str "subscription_ack"
def respTypeUnsubscriptionAck : GoStr := str "unsubscription_ack"
def respTypeSubscribeError : GoStr := str "subscribe_error"
def respTypeUnsubscribeError : GoStr := str "unsubscribe_error"
def respTypePublishError : GoStr := str "publish_error"

/-! ## Subscribing -/

def requestedChannels (cfg : Config) (d : SubscribeData) : Except Effect (List GoStr) :=
  match d.history with
  | none => .ok d.channels.items
  | some _ =>
    if d.channel = [] then
      .error (sendError respTypeSubscribeError .invalidRequest "channel is required for subscribe-with-history")
    else if !cfg.history then
      .error (.historyError d.channel (str "history_disabled") (str "message history is not enabled"))
    else .ok [d.channel]

def handleSubscribe (cfg : Config) (c : Session) (data : GoStr) : Session × List Effect :=
  match unmarshalSubscribe data with
  | none => (c, [sendError respTypeSubscribeError .invalidRequest "Invalid subscribe request format"])
  | some d =>
    match requestedChannels cfg d with
    | .error e => (c, [e])
    | .ok channels =>
      if channels = [] then (c, [sendError respTypeSubscribeError .invalidRequest "no channels specified"])
      else
        let newChannels := (channels.filter fun ch => !c.subscriptions.has ch).length
        if cfg.maxChannelsPerClient < c.subscriptions.count + newChannels then
          (c, [sendError respTypeSubscribeError .subscribeLimitExceeded "channel subscription limit reached"])
        else
          let c := c.register channels
          let request := d.history.toList.map fun limit => Effect.historyRequest d.channel limit
          (c, [.subscribe channels, .ack respTypeSubscriptionAck channels c.subscriptions.count] ++ request)

structure UnsubscribeData where
  channels : StrSlice
deriving DecidableEq

def unsubscribeFields : List (StructField UnsubscribeData) :=
  [⟨"channels".toList, fun v d => (decodeStrings v d.channels).map fun c => { d with channels := c }⟩]

def handleUnsubscribe (c : Session) (data : GoStr) : Session × List Effect :=
  match unmarshal unsubscribeFields ⟨.nil⟩ data with
  | none => (c, [sendError respTypeUnsubscribeError .invalidRequest "Invalid unsubscribe request format"])
  | some d =>
    let channels := d.channels.items
    let c := { c with
      subscriptions := c.subscriptions.removeMultiple channels
      index := c.index.removeMultiple channels c.ref }
    (c, [.unsubscribe channels, .ack respTypeUnsubscriptionAck channels c.subscriptions.count])

/-! ## Publishing -/

inductive PublishErr
  | noMatchingRoute
  | notRoutable
  | invalidChannel
  | topicNotProvisioned
  | serviceUnavailable
  | busUnavailable
  | other
deriving DecidableEq

/-- See `server/handlers_publish.go:121`. -/
def publishErrorToClientCode : PublishErr → ErrorCode
  | .noMatchingRoute => .noMatchingRoute
  | .notRoutable => .noRoutingRules
  | .invalidChannel => .invalidChannel
  | .topicNotProvisioned => .topicNotProvisioned
  | .serviceUnavailable => .serviceUnavailable
  | .busUnavailable => .serviceUnavailable
  | .other => .publishFailed

def defaultMaxPublishSize : Nat := 64 * 1024
def sendPublishError (code : ErrorCode) : Effect := .error respTypePublishError code.text code.publishMessage

structure MessageInput where
  replay : ReplayInput
  allowPublish : Bool
  publishResult : Except PublishErr GoStr

/-- See `server/handlers_publish.go:29`. -/
def handleClientPublish (cfg : Config) (inp : MessageInput) (data : GoStr) : List Effect :=
  match cfg.backend with
  | none => [sendPublishError .notAvailable]
  | some _ =>
    match unmarshalPublish data with
    | none => [sendPublishError .invalidRequest]
    | some d =>
      if !isValidInternalChannel d.channel then [sendPublishError .invalidChannel]
      else if defaultMaxPublishSize < d.data.length then [sendPublishError .messageTooLarge]
      else if !inp.allowPublish then [sendPublishError .rateLimited]
      else
        match inp.publishResult with
        | .error e => [.publish d.channel d.data, sendPublishError (publishErrorToClientCode e)]
        | .ok mid => [.publish d.channel d.data, .publishAck d.channel mid]

/-! ## Dispatch -/

/-- See `server/handlers_message.go:14`. -/
def handleClientMessage (cfg : Config) (inp : MessageInput) (c : Session) (data : GoStr) : Session × List Effect :=
  match unmarshalClientMessage data with
  | none => (c, [sendError msgTypeError .invalidJSON "Message is not valid JSON"])
  | some req =>
    if req.type = msgTypeReconnect then handleReconnect cfg inp.replay c req.data
    else if req.type = msgTypeHeartbeat then (c, [.pong])
    else if req.type = msgTypeSubscribe then handleSubscribe cfg c req.data
    else if req.type = msgTypeUnsubscribe then handleUnsubscribe c req.data
    else if req.type = msgTypeReplay then (c, [.replayRequest req.data])
    else if req.type = msgTypeHistory then (c, [.historyMessage req.data])
    else if req.type = msgTypePublish then (c, handleClientPublish cfg inp req.data)
    else (c, [])

/-! ## Where subscriptions and publishes come from -/

def Effect.isAccess : Effect → Bool
  | .subscribe _ | .publish _ _ => true
  | _ => false

theorem handleReconnect_no_access (cfg : Config) (inp : ReplayInput) (c : Session) (data : GoStr) :
    ∀ e ∈ (handleReconnect cfg inp c data).2, e.isAccess = false := by
  unfold handleReconnect
  split
  · simp [sendError, Effect.isAccess]
  split
  · simp [sendError, Effect.isAccess]
  dsimp only
  split
  · simp [Effect.isAccess]
  · split
    · simp [sendError, Effect.isAccess]
    · intro e he
      simp only [cons_append, mem_cons, mem_append, mem_map, not_mem_nil, or_false] at he
      rcases he with rfl | ⟨m, -, rfl⟩ | rfl <;> rfl

theorem handleUnsubscribe_no_access (c : Session) (data : GoStr) : ∀ e ∈ (handleUnsubscribe c data).2, e.isAccess = false := by
  unfold handleUnsubscribe
  split <;> simp [sendError, Effect.isAccess]

variable {cfg : Config} {data : GoStr} {e : Effect} {inp : MessageInput} {c : Session}

theorem handleSubscribe_access (he : e ∈ (handleSubscribe cfg c data).2) (ha : e.isAccess = true) :
    ∃ d channels, unmarshalSubscribe data = some d ∧ requestedChannels cfg d = .ok channels ∧ e = .subscribe channels := by
  unfold handleSubscribe at he
  split at he
  · rw [mem_singleton.1 he] at ha
    cases ha
  rename_i d hd
  split at he
  · rename_i e' hr
    rw [mem_singleton.1 he] at ha
    unfold requestedChannels at hr
    split at hr
    · cases hr
    split at hr
    · cases hr
      cases ha
    split at hr
    · cases hr
      cases ha
    · cases hr
  · rename_i channels hr
    split at he
    · rw [mem_singleton.1 he] at ha
      cases ha
    dsimp only at he
    split at he
    · rw [mem_singleton.1 he] at ha
      cases ha
    simp only [cons_append, nil_append, mem_cons, mem_map] at he
    rcases he with rfl | rfl | ⟨limit, -, rfl⟩
    · exact ⟨d, channels, hd, hr, rfl⟩
    · cases ha
    · cases ha

theorem handleClientPublish_access (he : e ∈ handleClientPublish cfg inp data) (ha : e.isAccess = true) :
    ∃ d, unmarshalPublish data = some d ∧ e = .publish d.channel d.data := by
  have her : ∀ code, e ∉ [sendPublishError code] := by
    intro code he
    rw [mem_singleton.1 he] at ha
    cases ha
  unfold handleClientPublish at he
  split at he
  · exact absurd he (her _)
  split at he
  · exact absurd he (her _)
  rename_i d hd
  split at he
  · exact absurd he (her _)
  split at he
  · exact absurd he (her _)
  split at he
  · exact absurd he (her _)
  split at he
  · rcases mem_cons.1 he with rfl | he
    · exact ⟨d, hd, rfl⟩
    · exact absurd he (her _)
  · rcases mem_cons.1 he with rfl | he
    · exact ⟨d, hd, rfl⟩
    · rw [mem_singleton.1 he] at ha
      cases ha

/-- **An access comes from a subscribe or a publish message**, decoded from the text. -/
theorem handleClientMessage_access (he : e ∈ (handleClientMessage cfg inp c data).2) (ha : e.isAccess = true) :
    ∃ m, unmarshalClientMessage data = some m ∧ ((m.type = msgTypeSubscribe ∧ ∃ d channels, unmarshalSubscribe m.data = some d ∧
        requestedChannels cfg d = .ok channels ∧ e = .subscribe channels) ∨
      (m.type = msgTypePublish ∧ ∃ d, unmarshalPublish m.data = some d ∧ e = .publish d.channel d.data)) := by
  have hn : ∀ es : List Effect, (∀ e ∈ es, e.isAccess = false) → e ∉ es := by
    intro es hes he
    rw [hes e he] at ha
    cases ha
  unfold handleClientMessage at he
  split at he
  · exact absurd he (hn _ (by simp [sendError, Effect.isAccess]))
  rename_i m hm
  refine ⟨m, hm, ?_⟩
  split at he
  · exact absurd he (hn _ (handleReconnect_no_access _ _ _ _))
  split at he
  · exact absurd he (hn _ (by simp [Effect.isAccess]))
  split at he
  · rename_i ht
    exact Or.inl ⟨ht, handleSubscribe_access he ha⟩
  split at he
  · exact absurd he (hn _ (handleUnsubscribe_no_access _ _))
  split at he
  · exact absurd he (hn _ (by simp [Effect.isAccess]))
  split at he
  · exact absurd he (hn _ (by simp [Effect.isAccess]))
  split at he
  · rename_i ht
    exact Or.inr ⟨ht, handleClientPublish_access he ha⟩
  · exact absurd he (hn _ (by simp))

/-! ## Reading frames -/

structure Conn where
  reader : Option Reader
  session : Session

/-- One iteration of `Pump.ReadLoop` (`server/pump.go:137`). -/
def readFrame (cfg : Config) (inp : MessageInput) (allow : Bool) (conn : Conn) (f : Frame) : Conn × List Effect :=
  match conn.reader with
  | none => (conn, [])
  | some r =>
    match r.next f with
    | .failed | .closed => ({ conn with reader := none }, [])
    | .skip => (conn, [])
    | .more r => ({ conn with reader := some r }, [])
    | .message r op payload =>
      if op = .text ∧ allow then
        let (session, effects) := handleClientMessage cfg inp conn.session payload
        (⟨some r, session⟩, effects)
      else ({ conn with reader := some r }, [])

end Sukko.Server
