import Sukko.Lib.Json.Decode
/-
# Client messages

The lemmas relate the decoding of the gateway to that of the server.
-/

namespace Sukko.Protocol
open Json Utf8 List Option

/-! ## Error codes -/

/-- Models `ErrorCode` and `publishErrorMessages` (`shared/protocol/errors.go`). -/
inductive ErrorCode
  | invalidRequest
  | notAvailable
  | invalidChannel
  | messageTooLarge
  | rateLimited
  | forbidden
  | topicNotProvisioned
  | serviceUnavailable
  | noRoutingRules
  | noMatchingRoute
  | invalidJSON
  | publishFailed
  | replayFailed
  | subscribeLimitExceeded
deriving DecidableEq

def ErrorCode.text : ErrorCode → GoStr
  | .invalidRequest => str "invalid_request"
  | .notAvailable => str "not_available"
  | .invalidChannel => str "invalid_channel"
  | .messageTooLarge => str "message_too_large"
  | .rateLimited => str "rate_limited"
  | .forbidden => str "forbidden"
  | .topicNotProvisioned => str "topic_not_provisioned"
  | .serviceUnavailable => str "service_unavailable"
  | .noRoutingRules => str "no_routing_rules"
  | .noMatchingRoute => str "no_matching_route"
  | .invalidJSON => str "invalid_json"
  | .publishFailed => str "publish_failed"
  | .replayFailed => str "replay_failed"
  | .subscribeLimitExceeded => str "subscribe_limit_exceeded"

def ErrorCode.publishMessage : ErrorCode → GoStr
  | .notAvailable => str "Publishing is not enabled on this server"
  | .invalidRequest => str "Invalid publish request format"
  | .invalidChannel => str "Channel must have format: \x7btenant_id\x7d.\x7bsuffix\x7d"
  | .messageTooLarge => str "Message exceeds maximum size limit"
  | .rateLimited => str "Publish rate limit exceeded"
  | .publishFailed => str "Failed to publish message"
  | .forbidden => str "Not authorized to publish to this channel"
  | .topicNotProvisioned => str "Topic is not provisioned for your tenant"
  | .serviceUnavailable => str "Service temporarily unavailable, please retry"
  | .noRoutingRules => str "No topic routing rules configured for tenant"
  | .noMatchingRoute => str "No matching topic routing rule for channel"
  | .invalidJSON | .replayFailed | .subscribeLimitExceeded => []

/-! ## Messages -/

def msgTypeSubscribe : GoStr := str "subscribe"
def msgTypeUnsubscribe : GoStr := str "unsubscribe"
def msgTypePublish : GoStr := str "publish"

structure ClientMessage where
  type : GoStr
  data : GoStr
deriving DecidableEq

def clientMessageFields : List (StructField ClientMessage) :=
  [⟨"type".toList, fun v m => (decodeString v m.type).map fun t => { m with type := t }⟩,
   ⟨"data".toList, fun v m => some { m with data := v.text }⟩]

def unmarshalClientMessage (data : GoStr) : Option ClientMessage := unmarshal clientMessageFields ⟨[], []⟩ data

structure SubscribeData where
  channels : StrSlice
  channel : GoStr
  history : Option Int
deriving DecidableEq

def subscribeHistoryFields : List (StructField Int) := [⟨"limit".toList, decodeInt⟩]

def subscribeFields : List (StructField SubscribeData) :=
  [⟨"channels".toList, fun v d => (decodeStrings v d.channels).map fun c => { d with channels := c }⟩,
   ⟨"channel".toList, fun v d => (decodeString v d.channel).map fun c => { d with channel := c }⟩,
   ⟨"history".toList, fun v d =>
      (decodePtr (decodeObject subscribeHistoryFields) 0 v d.history).map fun h => { d with history := h }⟩]

def SubscribeData.zero : SubscribeData := ⟨.nil, [], none⟩
def unmarshalSubscribe (data : GoStr) : Option SubscribeData := unmarshal subscribeFields .zero data

structure PublishData where
  channel : GoStr
  data : GoStr
deriving DecidableEq

def publishFields : List (StructField PublishData) :=
  [⟨"channel".toList, fun v d => (decodeString v d.channel).map fun c => { d with channel := c }⟩,
   ⟨"data".toList, fun v d => some { d with data := v.text }⟩]

def unmarshalPublish (data : GoStr) : Option PublishData := unmarshal publishFields ⟨[], []⟩ data

def messageTree (type : GoStr) (data : Option Value) : Value :=
  object (("type".toList, .str (quote type)) :: data.toList.map fun v => ("data".toList, v))

/-- Models `json.Marshal` of a `ClientMessage`. -/
def marshalClientMessage (m : ClientMessage) : Option GoStr :=
  if m.data = [] then some (messageTree m.type none).text
  else (parse m.data).map fun v => (messageTree m.type (some v.compact)).text

def channelsTree (channels : List GoStr) : Value :=
  object (if channels = [] then [] else [("channels".toList, array (channels.map fun c => .str (quote c)))])

/-- Models `json.Marshal` of a `SubscribeData` with `Channels` only. -/
def marshalChannels (channels : List GoStr) : GoStr := (channelsTree channels).text

/-! ## Decoding what was encoded -/

def Decoded (s : GoStr) : Prop := ∃ cs, s = encode cs

theorem decoded_nil : Decoded [] := ⟨[], rfl⟩

/-- A string after `json.Marshal` and `json.Unmarshal`: what is not UTF-8 becomes U+FFFD. -/
def sanitized (s : GoStr) : GoStr := encode (quote s).unquote

theorem sanitized_decoded (s : GoStr) : Decoded (sanitized s) := ⟨_, rfl⟩

theorem sanitized_of_decoded {s : GoStr} (h : Decoded s) : sanitized s = s := by
  obtain ⟨cs, rfl⟩ := h
  rw [sanitized, unquote_quote]

variable {s raw data type : GoStr} {v : Value} {d : SubscribeData} {m : ClientMessage} {ss : List GoStr}

theorem decodeString_quote (h : Decoded s) (old : GoStr) : decodeString (.str (quote s)) old = some s := by
  obtain ⟨cs, rfl⟩ := h
  rw [decodeString, unquote_quote]

theorem decodeString_decoded {old : GoStr} (hold : Decoded old) (h : decodeString v old = some s) : Decoded s := by
  unfold decodeString at h
  split at h
  · cases h
    exact hold
  · cases h
    exact ⟨_, rfl⟩
  · cases h

theorem decodeElems_decoded {vs : List Value} {backing xs : List GoStr} (hb : ∀ s ∈ backing, Decoded s)
    (h : decodeElems vs backing = some xs) : ∀ s ∈ xs, Decoded s := by
  induction vs generalizing backing xs with
  | nil =>
    cases h
    simp
  | cons v vs ih =>
    rw [decodeElems] at h
    split at h
    · cases h
    rename_i x hx
    obtain ⟨ys, hys, rfl⟩ := map_eq_some_iff.1 h
    have hh : Decoded (backing.headD []) := by
      cases backing with
      | nil => exact decoded_nil
      | cons b bs => exact hb b mem_cons_self
    rw [forall_mem_cons]
    exact ⟨decodeString_decoded hh hx, ih (fun s hs => hb s (mem_of_mem_tail hs)) hys⟩

theorem decodeStrings_decoded {old new : StrSlice} (hold : ∀ s ∈ old.items ++ old.stale, Decoded s)
    (h : decodeStrings v old = some new) : ∀ s ∈ new.items ++ new.stale, Decoded s := by
  unfold decodeStrings at h
  split at h
  · cases h
    simp [StrSlice.nil]
  · cases h
    simp [StrSlice.nil]
  · obtain ⟨xs, hxs, rfl⟩ := map_eq_some_iff.1 h
    rw [forall_mem_append]
    exact ⟨decodeElems_decoded hold hxs, fun s hs => hold s (mem_of_mem_drop hs)⟩
  · cases h

theorem unmarshalSubscribe_decoded (h : unmarshalSubscribe data = some d) : ∀ c ∈ d.channels.items, Decoded c := by
  obtain ⟨v, -, hd⟩ := bind_eq_some_iff.1 h
  have hset : ∀ f ∈ subscribeFields, ∀ v (s s' : SubscribeData), (∀ x ∈ s.channels.items ++ s.channels.stale, Decoded x) →
      f.set v s = some s' → ∀ x ∈ s'.channels.items ++ s'.channels.stale, Decoded x := by
    intro f hf v s s' hs hset
    simp only [subscribeFields, mem_cons, not_mem_nil, or_false] at hf
    rcases hf with rfl | rfl | rfl
    · obtain ⟨c, hc, rfl⟩ := map_eq_some_iff.1 hset
      exact decodeStrings_decoded hs hc
    · obtain ⟨c, hc, rfl⟩ := map_eq_some_iff.1 hset
      exact hs
    · obtain ⟨c, hc, rfl⟩ := map_eq_some_iff.1 hset
      exact hs
  have hk := decodeObject_keeps (P := fun d => ∀ s ∈ d.channels.items ++ d.channels.stale, Decoded s) hset
    (by simp [SubscribeData.zero, StrSlice.nil]) hd
  exact fun c hc => hk c (mem_append_left _ hc)

theorem setMember_type (v : Value) (m : ClientMessage) : setMember clientMessageFields "type".toList v m =
    (decodeString v m.type).map fun t => { m with type := t } := rfl

theorem setMember_data (v : Value) (m : ClientMessage) : setMember clientMessageFields "data".toList v m =
    some { m with data := v.text } := rfl

theorem decode_messageTree (cs : List Char) (w : Option Value) :
    decodeObject clientMessageFields (messageTree (encode cs) w) ⟨[], []⟩ = some ⟨encode cs, w.elim [] Value.text⟩ := by
  rw [messageTree, decodeObject_object, setMembers, setMember_type, decodeString, unquote_quote]
  cases w with
  | none => rfl
  | some v => rw [toList_some, map_singleton, map_some, bind_some, setMembers, setMember_data]; rfl

theorem unmarshalClientMessage_marshal (hty : Decoded type)
    (hs : marshalClientMessage ⟨type, data⟩ = some s) (hm : unmarshalClientMessage s = some m) :
    m.type = type ∧ (data = [] ∧ m.data = [] ∨ ∃ v, parse data = some v ∧ m.data = v.compact.text) := by
  obtain ⟨cs, rfl⟩ := hty
  have ht : ∀ w, unmarshalClientMessage (messageTree (encode cs) w).text = some m → m = ⟨encode cs, w.elim [] Value.text⟩ := by
    intro w hw
    have hd := unmarshal_text hw
    rw [decode_messageTree] at hd
    exact (some.inj hd).symm
  unfold marshalClientMessage at hs
  dsimp only at hs
  split at hs
  · rename_i hn
    cases hs
    rw [ht none hm]
    exact ⟨rfl, Or.inl ⟨hn, rfl⟩⟩
  · obtain ⟨v, hv, rfl⟩ := map_eq_some_iff.1 hs
    rw [ht (some v.compact) hm]
    exact ⟨rfl, Or.inr ⟨v, hv, rfl⟩⟩

theorem decodeSubscribe_compact (v : Value) (d : SubscribeData) :
    decodeObject subscribeFields v.compact d = decodeObject subscribeFields v d := by
  have hl : ∀ (v : Value) (n : Int),
      decodeObject subscribeHistoryFields v.compact n = decodeObject subscribeHistoryFields v n := by
    refine decodeObject_compact_eq fun f hf v n => ?_
    rw [mem_singleton.1 hf]
    exact decodeInt_compact v n
  refine decodeObject_compact_eq (fun f hf v d => ?_) v d
  simp only [subscribeFields, mem_cons, not_mem_nil, or_false] at hf
  rcases hf with rfl | rfl | rfl
  · simp only [decodeStrings_compact]
  · simp only [decodeString_compact]
  · simp only [decodePtr_compact 0 hl]

theorem unmarshalSubscribe_compact (hv : parse raw = some v)
    (h : unmarshalSubscribe v.compact.text = some d) : unmarshalSubscribe raw = some d := by
  have hd := unmarshal_text h
  rw [decodeSubscribe_compact] at hd
  rw [unmarshalSubscribe, unmarshal, hv]
  exact hd

theorem unmarshalPublish_compact {d : PublishData} (hv : parse raw = some v)
    (h : unmarshalPublish v.compact.text = some d) : ∃ d', unmarshalPublish raw = some d' ∧ d'.channel = d.channel := by
  have hr : Option.Rel (fun a b : PublishData => a.channel = b.channel)
      (decodeObject publishFields v.compact ⟨[], []⟩) (decodeObject publishFields v ⟨[], []⟩) := by
    refine decodeObject_compact (fun f hf v a b hab => ?_) v rfl
    simp only [publishFields, mem_cons, not_mem_nil, or_false] at hf
    rcases hf with rfl | rfl
    · simp only [decodeString_compact, hab]
      cases decodeString v b.channel with
      | none => exact .none
      | some c => exact .some rfl
    · exact .some hab
  rw [unmarshal_text h] at hr
  rw [unmarshalPublish, unmarshal, hv, bind_some]
  generalize decodeObject publishFields v ⟨[], []⟩ = o at hr
  cases hr with
  | some hc => exact ⟨_, rfl, hc.symm⟩

theorem exists_encode_of_decoded (h : ∀ s ∈ ss, Decoded s) : ∃ xs : List (List Char), ss = xs.map encode := by
  induction ss with
  | nil => exact ⟨[], rfl⟩
  | cons s ss ih =>
    rw [forall_mem_cons] at h
    obtain ⟨x, rfl⟩ := h.1
    obtain ⟨xs, rfl⟩ := ih h.2
    exact ⟨x :: xs, rfl⟩

theorem depth_quoted (ss : List GoStr) : (array (ss.map fun s => .str (quote s))).depth ≤ 1 := by
  refine depth_array (d := 0) fun v hv => ?_
  obtain ⟨s, -, rfl⟩ := mem_map.1 hv
  exact Nat.le_refl 0

theorem depth_channelsTree (channels : List GoStr) : (channelsTree channels).depth ≤ 2 := by
  refine depth_object (d := 1) fun m hm => ?_
  split at hm
  · cases hm
  rw [mem_singleton.1 hm]
  exact depth_quoted channels

theorem decodeStrings_decoded_quoted (h : ∀ s ∈ ss, Decoded s) :
    decodeStrings (array (ss.map fun s => .str (quote s))) .nil = some ⟨ss, []⟩ := by
  obtain ⟨xs, rfl⟩ := exists_encode_of_decoded h
  rw [List.map_map]
  exact decodeStrings_array xs

theorem unmarshalSubscribe_channels {channels : List GoStr} (hd : ∀ c ∈ channels, Decoded c) :
    unmarshalSubscribe (channelsTree channels).compact.text = some ⟨⟨channels, []⟩, [], none⟩ := by
  have hdp : (channelsTree channels).compact.depth ≤ maxNestingDepth := by
    rw [Value.depth_compact]
    exact (depth_channelsTree channels).trans (by decide)
  have hf : ∀ v d, setMember subscribeFields "channels".toList v d =
    (decodeStrings v d.channels).map fun c => { d with channels := c } := fun _ _ => rfl
  rw [unmarshalSubscribe, unmarshal_written hdp, decodeSubscribe_compact, channelsTree, decodeObject_object]
  split
  · rename_i hn
    rw [hn]
    rfl
  · rw [setMembers, hf, SubscribeData.zero, decodeStrings_decoded_quoted hd]
    rfl

theorem channelsMessage_arrives (ht : Decoded type) (channels : List GoStr) :
    ∃ text, marshalClientMessage ⟨type, marshalChannels channels⟩ = some text ∧
      unmarshalClientMessage text = some ⟨type, (channelsTree channels).compact.text⟩ := by
  obtain ⟨cs, rfl⟩ := ht
  have hdt : marshalChannels channels ≠ [] := by
    obtain ⟨b, t, hbt, -⟩ := (channelsTree channels).text_cons
    rw [marshalChannels, hbt]
    exact cons_ne_nil b t
  have hp : parse (marshalChannels channels) = some (channelsTree channels) :=
    parse_written ((depth_channelsTree channels).trans (by decide))
  have hd : (messageTree (encode cs) (some (channelsTree channels).compact)).depth ≤ maxNestingDepth := by
    refine (depth_object (d := 2) fun m hm => ?_).trans (by decide)
    simp only [toList_some, map_singleton, mem_cons, not_mem_nil, or_false] at hm
    rcases hm with rfl | rfl
    · exact Nat.zero_le 2
    · rw [Value.depth_compact]
      exact depth_channelsTree channels
  refine ⟨_, by rw [marshalClientMessage, if_neg hdt, hp, map_some], ?_⟩
  rw [unmarshalClientMessage, unmarshal_written hd, decode_messageTree]
  rfl

theorem type_eq_nil_of_not_object {b : UInt8} (hs : isSpace b = false) (hb : b ≠ Kind.obj.openByte)
    (h : unmarshalClientMessage (b :: s) = some m) : m.type = [] := by
  obtain ⟨v, hv, hd⟩ := bind_eq_some_iff.1 h
  obtain ⟨w', ht⟩ := parse_head hs hv
  unfold decodeObject at hd
  split at hd
  · cases hd
    rfl
  · cases ht
    exact absurd rfl hb
  · cases ht
    exact absurd rfl hb
  · cases hd

end Sukko.Protocol
