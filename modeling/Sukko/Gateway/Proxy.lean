import Sukko.Gateway.AuthRequest
import Sukko.Shared.Protocol
import Sukko.Shared.WebSocket
/-
# The proxy between a client and the server
-/

namespace Sukko.Gateway
open Channels Json Protocol WebSocket

def msgTypeAuth : GoStr := str "auth"

inductive Reply
  | publishError (code : ErrorCode)
  | authError (code : AuthCode)
  | authAck (exp : Int)
  | unsubscriptionAck (forced : List GoStr)
  | close (status : Nat) (reason : GoStr)
deriving DecidableEq

structure ProxyInput where
  now : Time
  allowPublish : Bool
  allowAuth : Bool

/-! ## Intercepting -/

/-- See `gateway/proxy.go:512`. -/
def interceptSubscribe (gw : Env) (p : Proxy) (m : ClientMessage) : Option GoStr :=
  match unmarshalSubscribe m.data with
  | none => marshalClientMessage m
  | some d =>
    marshalClientMessage ⟨msgTypeSubscribe, marshalChannels (gw.filterSubscribe p d.channels.items p.claims)⟩

/-- See `gateway/proxy.go:564`. -/
def interceptPublish (gw : Env) (inp : ProxyInput) (p : Proxy) (m : ClientMessage) : Except ErrorCode (Option GoStr) :=
  if p.apiKeyOnly then .error .forbidden
  else if !inp.allowPublish then .error .rateLimited
  else
    match unmarshalPublish m.data with
    | none => .error .invalidRequest
    | some d =>
      if p.maxPublishSize < d.data.length then .error .messageTooLarge
      else if partCount d.channel < minInternalChannelParts then .error .invalidChannel
      else if !validateChannelTenant d.channel p.tenantID then .error .forbidden
      else if !gw.canPublish p p.claims d.channel then .error .forbidden
      else .ok (marshalClientMessage m)

def authFields : List (StructField GoStr) := [⟨"token".toList, decodeString⟩]

structure Intercepted where
  proxy : Proxy
  payload : Option GoStr
  toBackend : List Frame
  toClient : List Reply

def forcedUnsubscribe (revoked : List GoStr) : List Frame :=
  if revoked = [] then []
  else (marshalClientMessage ⟨msgTypeUnsubscribe, marshalChannels revoked⟩).toList.map fun s => ⟨.text, true, s⟩

def interceptAuth (gw : Env) (inp : ProxyInput) (p : Proxy) (m : ClientMessage) : Intercepted :=
  match interceptAuthRefresh gw inp.now inp.allowAuth (unmarshal authFields [] m.data) p with
  | .denied code => ⟨p, none, [], [.authError code]⟩
  | .swapped p' revoked exp =>
    let acks := if revoked = [] then [] else [Reply.unsubscriptionAck revoked]
    ⟨p', none, forcedUnsubscribe revoked, acks ++ [.authAck exp]⟩

/-- See `gateway/proxy.go:477`. -/
def interceptClientMessage (gw : Env) (inp : ProxyInput) (p : Proxy) (msg : GoStr) : Intercepted :=
  let passThrough : Intercepted := ⟨p, some msg, [], []⟩
  if p.tenantID = [] then passThrough
  else
    match msg with
    | [] => passThrough
    | b :: _ =>
      if b ≠ Kind.obj.openByte then passThrough
      else
        match unmarshalClientMessage msg with
        | none => passThrough
        | some m =>
          if m.type = msgTypeSubscribe then ⟨p, interceptSubscribe gw p m, [], []⟩
          else if m.type = msgTypePublish then
            match interceptPublish gw inp p m with
            | .error code => ⟨p, none, [], [.publishError code]⟩
            | .ok payload => ⟨p, payload, [], []⟩
          else if m.type = msgTypeAuth then interceptAuth gw inp p m
          else passThrough

/-! ## The two directions -/

structure Pumped where
  proxy : Proxy
  running : Bool
  toBackend : List Frame
  toClient : List Reply

def statusMessageTooBig : Nat := 1009

/-- One iteration of `Proxy.proxyClientToBackend` (`proxy.go:192`). -/
def proxyClientFrame (gw : Env) (inp : ProxyInput) (p : Proxy) (f : Frame) : Pumped :=
  if p.maxFrameSize < f.payload.length then ⟨p, false, [], [.close statusMessageTooBig (str "Frame too large")]⟩
  else
    match f.op with
    | .close => ⟨p, false, [⟨.close, true, f.payload⟩], []⟩
    | .text =>
      let r := interceptClientMessage gw inp p f.payload
      ⟨r.proxy, true, r.toBackend ++ r.payload.toList.map fun s => ⟨.text, f.fin, s⟩, r.toClient⟩
    | _ => ⟨p, true, [f], []⟩

structure AckMessage where
  type : GoStr
  subscribed : StrSlice
  unsubscribed : StrSlice

def ackFields : List (StructField AckMessage) :=
  [⟨"type".toList, fun v m => (decodeString v m.type).map fun t => { m with type := t }⟩,
   ⟨"subscribed".toList, fun v m => (decodeStrings v m.subscribed).map fun c => { m with subscribed := c }⟩,
   ⟨"unsubscribed".toList, fun v m => (decodeStrings v m.unsubscribed).map fun c => { m with unsubscribed := c }⟩]

def subscriptionAckPrefixScanLen : Nat := 80

/-- See `proxy.go:438`. -/
def trackSubscriptionResponse (p : Proxy) (payload : GoStr) : Proxy :=
  if ¬ str "_ack" <:+: payload.take subscriptionAckPrefixScanLen then p
  else
    match unmarshal ackFields ⟨[], .nil, .nil⟩ payload with
    | none => p
    | some m =>
      if m.type = str "subscription_ack" then
        { p with subscribedChannels := m.subscribed.items.foldl (fun cs ch => cs.insert ch) p.subscribedChannels }
      else if m.type = str "unsubscription_ack" then
        { p with subscribedChannels := p.subscribedChannels.filter (· ∉ m.unsubscribed.items) }
      else p

/-! ## What an inspected payload holds -/

structure Inspected (gw : Env) (p : Proxy) (text : GoStr) : Prop where
  subscribe : ∀ m d, unmarshalClientMessage text = some m → m.type = msgTypeSubscribe →
    unmarshalSubscribe m.data = some d →
    d.history = none ∧ ∀ ch ∈ d.channels.items, subscribeAllowed gw.provider p.tenantID p.claims ch = true
  publish : ∀ m d, unmarshalClientMessage text = some m → m.type = msgTypePublish →
    unmarshalPublish m.data = some d → gw.canPublish p p.claims d.channel = true

theorem inspected_of_type {gw : Env} {p : Proxy} {text : GoStr}
    (h : ∀ m, unmarshalClientMessage text = some m → m.type ≠ msgTypeSubscribe ∧ m.type ≠ msgTypePublish) :
    Inspected gw p text where
  subscribe m _ hm ht _ := absurd ht (h m hm).1
  publish m _ hm ht _ := absurd ht (h m hm).2

theorem decoded_msgTypeSubscribe : Decoded msgTypeSubscribe := ⟨"subscribe".toList, by decide⟩
theorem decoded_msgTypePublish : Decoded msgTypePublish := ⟨"publish".toList, by decide⟩

section Inspected
variable {gw : Env} {inp : ProxyInput} {p : Proxy} {m : ClientMessage} {out : GoStr}

/-- **The rewrite of a subscribe**: what decodes is always forwarded, as the list of the permitted channels and nothing
else. -/
theorem interceptSubscribe_arrives (gw : Env) (p : Proxy) (m : ClientMessage) {d : SubscribeData}
    (hd : unmarshalSubscribe m.data = some d) :
    ∃ text payload, interceptSubscribe gw p m = some text ∧ unmarshalClientMessage text = some ⟨msgTypeSubscribe, payload⟩ ∧
      unmarshalSubscribe payload =
        some ⟨⟨d.channels.items.filter (subscribeAllowed gw.provider p.tenantID p.claims), []⟩, [], none⟩ := by
  have hf : gw.filterSubscribe p d.channels.items p.claims =
      d.channels.items.filter (subscribeAllowed gw.provider p.tenantID p.claims) :=
    filterSubscribeChannels_eq _ _ _ _
  obtain ⟨text, hm, hms⟩ := channelsMessage_arrives decoded_msgTypeSubscribe
    (d.channels.items.filter (subscribeAllowed gw.provider p.tenantID p.claims))
  refine ⟨text, _, ?_, hms, unmarshalSubscribe_channels fun c hc => ?_⟩
  · rw [interceptSubscribe, hd]
    dsimp only
    rw [hf, hm]
  · exact unmarshalSubscribe_decoded hd c (List.mem_of_mem_filter hc)

theorem inspected_interceptSubscribe (hty : m.type = msgTypeSubscribe)
    (h : interceptSubscribe gw p m = some out) : Inspected gw p out := by
  obtain ⟨type, data⟩ := m
  dsimp only at hty
  subst hty
  cases hd : unmarshalSubscribe data with
  | none =>
    simp only [interceptSubscribe, hd] at h
    refine ⟨fun m' d hm' _ hd' => ?_, fun m' d hm' ht _ => ?_⟩
    · -- what did not decode before does not decode now
      obtain ⟨-, ⟨-, hn⟩ | ⟨v, hv, hr⟩⟩ := unmarshalClientMessage_marshal decoded_msgTypeSubscribe h hm'
      · rw [hn, unmarshalSubscribe, unmarshal_nil] at hd'
        cases hd'
      · rw [hr] at hd'
        rw [unmarshalSubscribe_compact hv hd'] at hd
        cases hd
    · have := (unmarshalClientMessage_marshal decoded_msgTypeSubscribe h hm').1
      exact absurd (this.symm.trans ht) (by decide)
  | some d₀ =>
    obtain ⟨text, payload, htx, hm, hp⟩ := interceptSubscribe_arrives gw p ⟨msgTypeSubscribe, data⟩ hd
    obtain rfl : text = out := Option.some.inj (htx.symm.trans h)
    refine ⟨fun m' d hm' _ hd' => ?_, fun m' d hm' ht _ => ?_⟩
    · rw [hm, Option.some.injEq] at hm'
      rw [← hm', hp, Option.some.injEq] at hd'
      rw [← hd']
      exact ⟨rfl, fun ch hch => (List.mem_filter.1 hch).2⟩
    · rw [hm, Option.some.injEq] at hm'
      subst hm'
      have hne : msgTypeSubscribe ≠ msgTypePublish := by decide
      exact absurd ht hne

theorem inspected_interceptPublish (ht : m.type = msgTypePublish)
    (h : interceptPublish gw inp p m = .ok (some out)) : Inspected gw p out := by
  obtain ⟨type, data⟩ := m
  dsimp only at ht
  subst ht
  obtain ⟨d₀, hd₀, hp, ho⟩ : ∃ d₀, unmarshalPublish data = some d₀ ∧
      gw.canPublish p p.claims d₀.channel = true ∧ marshalClientMessage ⟨msgTypePublish, data⟩ = some out := by
    unfold interceptPublish at h
    split at h
    · cases h
    split at h
    · cases h
    split at h
    · cases h
    rename_i d₀ hd₀
    split at h
    · cases h
    split at h
    · cases h
    split at h
    · cases h
    split at h
    · cases h
    rename_i hp
    exact ⟨d₀, hd₀, by simpa using hp, Except.ok.inj h⟩
  refine ⟨fun m' d hm' hty _ => ?_, fun m' d hm' _ hd' => ?_⟩
  · have := (unmarshalClientMessage_marshal decoded_msgTypePublish ho hm').1
    exact absurd (this.symm.trans hty) (by decide)
  · obtain ⟨-, ⟨-, hn⟩ | ⟨v, hv, hr⟩⟩ := unmarshalClientMessage_marshal decoded_msgTypePublish ho hm'
    · rw [hn, unmarshalPublish, unmarshal_nil] at hd'
      cases hd'
    · rw [hr] at hd'
      obtain ⟨d', hd, hch⟩ := unmarshalPublish_compact hv hd'
      rw [hd₀] at hd
      cases hd
      rw [← hch]
      exact hp

/-- **What the gateway forwards is authorized**, provided the message does not start with white space. -/
theorem inspected_interceptClientMessage {msg : GoStr} (ht : p.tenantID ≠ []) (hms : Stops isSpace msg)
    (h : (interceptClientMessage gw inp p msg).payload = some out) : Inspected gw p out := by
  unfold interceptClientMessage at h
  dsimp only at h
  rw [if_neg ht] at h
  split at h
  · cases h
    exact inspected_of_type fun m hm => by rw [unmarshalClientMessage, unmarshal_nil] at hm; cases hm
  · rename_i b s
    split at h
    · rename_i hb
      cases h
      refine inspected_of_type fun m hm => ?_
      rw [type_eq_nil_of_not_object (hms b rfl) hb hm]
      decide
    · split at h
      · rename_i hn
        cases h
        exact inspected_of_type fun m hm => by rw [hn] at hm; cases hm
      · rename_i m hm
        split at h
        · rename_i hty
          exact inspected_interceptSubscribe hty h
        · rename_i hs
          split at h
          · rename_i hty
            split at h
            · cases h
            rename_i payload hp
            cases h
            exact inspected_interceptPublish hty hp
          · rename_i hp
            split at h
            · unfold interceptAuth at h
              split at h <;> cases h
            · cases h
              refine inspected_of_type fun m' hm' => ?_
              rw [hm] at hm'
              cases hm'
              exact ⟨hs, hp⟩

end Inspected
end Sukko.Gateway
