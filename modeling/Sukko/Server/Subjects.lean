import Sukko.Gateway.ChannelFilter
import Sukko.Gateway.SseStream
import Sukko.History.Writer
import Sukko.Lib.Json.Data
/-
# The subject of a record, from the consumer to its readers

`Kafka.extractChannel` cuts the channel at the first dot, `broadcastChannel` splits it at every dot. Writer and reader of a
history get the same environment (`server/server.go:339-351`).
-/

namespace Sukko.Server
open GoStr List
open Kafka (Record Resolver extractChannel encodePos)
open Gateway (trimPrefix)
open Protocol (Decoded sanitized sanitized_of_decoded)
open Gateway.SseStream (broadcastChannel)
open History (Message HistoryConfig XAdd streamKey xadd)

/-! ## Delivery -/

variable {channel tenant : GoStr}

theorem extractChannel_accepts {tenantResolver : Resolver} {r : Record}
    (h : extractChannel tenantResolver r = (channel, none, tenant)) :
    tenant ≠ [] ∧ dot ∉ tenant ∧ ∃ rest, channel = tenant ++ dot :: rest := by
  unfold extractChannel at h
  split at h
  · cases h
  split at h
  · cases h
  split at h
  · cases h
  · cases h
  rename_i ch _ i hz hi
  split at h
  · cases h
  rename_i ht
  cases h
  rw [not_not] at ht
  have hc : cut channel dot = some (channel.take i, channel.drop (i + 1)) := by rw [cut, hi, Option.map_some]
  obtain ⟨heq, hd⟩ := cut_eq_some_iff.1 hc
  rw [ht] at heq hd
  refine ⟨?_, hd, _, heq⟩
  rintro rfl
  have hl := congrArg List.length ht
  have hlt := (List.findIdx?_eq_some_iff_getElem.1 hi).1
  rw [length_take, length_nil] at hl
  exact hz (by omega)

theorem broadcastChannel_iff (hne : tenant ≠ []) (hd : dot ∉ tenant) (rest : GoStr) :
    broadcastChannel (tenant ++ dot :: rest) = tenant ++ dot :: rest ↔ [] ∉ split dot rest := by
  simp [broadcastChannel, split_append hd, split_ne_nil, Ne.symm hne]

/-- **A record is deliverable** iff no segment of its channel after the tenant is empty. -/
theorem accepted_deliverable_iff (tenantResolver : Resolver) (r : Record) (channel tenant : GoStr)
    (h : extractChannel tenantResolver r = (channel, none, tenant)) :
    ∃ rest, channel = tenant ++ dot :: rest ∧ (broadcastChannel channel = channel ↔ [] ∉ split dot rest) := by
  obtain ⟨hne, hdot, rest, rfl⟩ := extractChannel_accepts h
  exact ⟨rest, rfl, broadcastChannel_iff hne hdot rest⟩

theorem accepted_deliverable_iff_news :
    extractChannel Kafka.acmeResolver (Kafka.acmeRecord 0 (str "acme.news")) = (str "acme.news", none, str "acme") ∧
      broadcastChannel (str "acme.news") = str "acme.news" := by
  have haccept : extractChannel Kafka.acmeResolver (Kafka.acmeRecord 0 (str "acme.news")) = (str "acme.news", none, str "acme") := by decide
  obtain ⟨rest, heq, hiff⟩ := accepted_deliverable_iff Kafka.acmeResolver (Kafka.acmeRecord 0 (str "acme.news")) _ _ haccept
  obtain rfl : str "news" = rest := (List.cons.inj (@List.append_cancel_left _ (str "acme") _ _ heq)).2
  exact ⟨haccept, hiff.2 (by decide)⟩

/-- **Bug**: the consumer accepts `acme.news..today`, and every server drops it without a trace. -/
theorem empty_segment_undelivered :
    extractChannel Kafka.acmeResolver (Kafka.acmeRecord 0 (str "acme.news..today")) = (str "acme.news..today", none, str "acme") ∧
      broadcastChannel (str "acme.news..today") = [] := by
  decide

/-! ## History -/

/-- The message of `MultiTenantConsumerPool.routeMessage` (`server/orchestration/multitenant_pool.go:652`). -/
def routeMessage (resolveTenant : GoStr → Option GoStr) (subject message topicName : GoStr) (partition offset : Int) : Message :=
  let tenantID := (resolveTenant topicName).getD []
  { subject, payload := message, tenantID
    pos := encodePos partition offset
    mid := messageID topicName partition offset
    channel := trimPrefix subject (tenantID ++ [dot]) }

/-- The message as the history writer reads it from the bus: its strings went through JSON (`server/broadcast/valkey.go:301`,
`:610`), its payload as base64, and the tenant is that of the Valkey channel (`:624`). -/
def onBus (msg : Message) : Message :=
  { msg with
    subject := sanitized msg.subject, pos := sanitized msg.pos, mid := sanitized msg.mid, channel := sanitized msg.channel }

/-- The key under which the writer stores a message that was routed. -/
def writtenKey (cfg : HistoryConfig) (env : GoStr) (msg : Message) : Option GoStr := (xadd cfg env (onBus msg)).map XAdd.key

inductive HistoryErr
  | historyDisabled
  | historyNotSubscribed
  | historyInvalidLimit
  | historyInvalidChannel
  | historyInProgress
deriving DecidableEq

structure HistoryReader where
  enabled : Bool
  historyMaxLimit : Int
  subscriptions : SubscriptionSet
  inProgress : List GoStr
  historyEnv : GoStr

/-- Models `Server.handleHistoryRequest` up to the key it reads (`server/handler_history.go:21-62`). -/
def handleHistoryRequest (s : HistoryReader) (channel : GoStr) (limit : Int) : Except HistoryErr GoStr :=
  if !s.enabled then .error .historyDisabled
  else if channel ∉ s.subscriptions.channels then .error .historyNotSubscribed
  else if limit < 1 ∨ s.historyMaxLimit < limit then .error .historyInvalidLimit
  else
    match cut channel dot with
    | none | some (_, []) => .error .historyInvalidChannel
    | some (tenantID, bareChannel) =>
      if channel ∈ s.inProgress then .error .historyInProgress else .ok (streamKey s.historyEnv tenantID bareChannel)

def colon : UInt8 := 58

theorem streamKey_inj {env t t' c c' : GoStr} (ht : colon ∉ t) (ht' : colon ∉ t') (h : streamKey env t c = streamKey env t' c') :
    t = t' ∧ c = c' := by
  have hc : cut (t ++ colon :: c) colon = cut (t' ++ colon :: c') colon := by
    have hs : str ":" = [colon] := by decide
    simp only [streamKey, hs, append_assoc, singleton_append] at h
    have htl : t ++ colon :: c = t' ++ colon :: c' := (List.cons.inj (append_cancel_left (append_cancel_left h))).2
    rw [htl]
  rw [cut_append ht, cut_append ht'] at hc
  cases hc
  exact ⟨rfl, rfl⟩

theorem routeMessage_channel {resolveTenant : GoStr → Option GoStr} {topicName : GoStr} (h : resolveTenant topicName = some tenant)
    (bareChannel message : GoStr) (partition offset : Int) :
    routeMessage resolveTenant (tenant ++ dot :: bareChannel) message topicName partition offset =
      ⟨tenant ++ dot :: bareChannel, message, tenant, encodePos partition offset, messageID topicName partition offset,
        bareChannel⟩ := by
  have hp : hasPrefix (tenant ++ dot :: bareChannel) (tenant ++ [dot]) = true := hasPrefix_iff.2 ⟨bareChannel, by simp⟩
  simp [routeMessage, h, trimPrefix, hp]

theorem sanitized_ne_nil {b : UInt8} {t : GoStr} : sanitized (b :: t) ≠ [] := by
  have hrune (c : Char) : Utf8.encodeRune c ≠ [] := by
    unfold Utf8.encodeRune
    dsimp only
    split_ifs <;> simp
  rw [sanitized, Json.unquote_quote_bytes, Utf8.decode, chunks]
  simp [Utf8.encode, hrune]

section
variable {resolveTenant : GoStr → Option GoStr} {topicName env : GoStr} (cfg : HistoryConfig) (message : GoStr)
  (partition offset : Int)

theorem writtenKey_routeMessage (h : resolveTenant topicName = some tenant) {bareChannel : GoStr} (hutf : Decoded bareChannel) :
    writtenKey cfg env (routeMessage resolveTenant (tenant ++ dot :: bareChannel) message topicName partition offset) =
      if tenant ≠ [] ∧ bareChannel ≠ [] then some (streamKey env tenant bareChannel) else none := by
  have hs : sanitized (tenant ++ dot :: bareChannel) ≠ [] := by
    cases tenant <;> exact sanitized_ne_nil
  rw [writtenKey, routeMessage_channel h, onBus, sanitized_of_decoded hutf]
  by_cases ht : tenant = []
  · simp [xadd, ht]
  · by_cases hb : bareChannel = [] <;> simp [xadd, ht, hb, hs]

end

/-- **Writer and reader of the history agree on keys**, for every tenant slug without a dot or a colon and every channel in
UTF-8; different pairs of a tenant and a channel have different streams. -/
theorem historyKeys_agree (tenant : GoStr) (hdot : dot ∉ tenant) (hcolon : colon ∉ tenant) (bareChannel : GoStr)
    (hutf : Decoded bareChannel) (resolveTenant : GoStr → Option GoStr) (topicName : GoStr)
    (htenant : resolveTenant topicName = some tenant) (message : GoStr) (partition offset : Int) (cfg : HistoryConfig)
    (env : GoStr) :
    (∀ written, writtenKey cfg env
        (routeMessage resolveTenant (tenant ++ dot :: bareChannel) message topicName partition offset) = some written →
      (∀ s limit key, s.historyEnv = env →
        handleHistoryRequest s (tenant ++ dot :: bareChannel) limit = .ok key → key = written) ∧
      ∀ tenant' bareChannel' topicName' message' partition' offset', colon ∉ tenant' → Decoded bareChannel' →
        resolveTenant topicName' = some tenant' → writtenKey cfg env (routeMessage resolveTenant
          (tenant' ++ dot :: bareChannel') message' topicName' partition' offset') = some written →
        tenant = tenant' ∧ bareChannel = bareChannel') ∧
      ((writtenKey cfg env
        (routeMessage resolveTenant (tenant ++ dot :: bareChannel) message topicName partition offset)).isSome = true ↔
          tenant ≠ [] ∧ bareChannel ≠ []) := by
  rw [writtenKey_routeMessage cfg message partition offset htenant hutf]
  refine ⟨fun written hwritten => ?_, by split <;> simp [*]⟩
  obtain ⟨-, hkey⟩ := Option.ite_none_right_eq_some.1 hwritten
  obtain rfl := Option.some.inj hkey
  refine ⟨fun s limit key henv hkey => ?_, ?_⟩
  · unfold handleHistoryRequest at hkey
    rw [cut_append hdot, henv] at hkey
    grind
  · intro tenant' bareChannel' topicName' message' partition' offset' hcolon' hutf' htenant' hwritten'
    rw [writtenKey_routeMessage cfg message' partition' offset' htenant' hutf'] at hwritten'
    obtain ⟨-, heq⟩ := Option.ite_none_right_eq_some.1 hwritten'
    exact streamKey_inj hcolon hcolon' (Option.some.inj heq).symm

def demoReader : HistoryReader := ⟨true, 100, ⟨[str "acme.acme.a:b"], List.nodup_singleton _⟩, [], str "prod"⟩

/-- The message of a record of tenant acme, as routed. -/
def acmeMessage (subject : GoStr) : Message :=
  routeMessage (fun _ => some (str "acme")) subject (str "1") (str "prod.acme.default") 0 7

theorem historyKeys_agree_separators : ∃ key, writtenKey .default (str "prod") (acmeMessage (str "acme.acme.a:b")) = some key ∧
    handleHistoryRequest demoReader (str "acme.acme.a:b") 10 = .ok key := by
  obtain ⟨hagree, hwrite⟩ := historyKeys_agree (str "acme") (by decide) (by decide) (str "acme.a:b")
    ⟨"acme.a:b".toList, by decide⟩ (fun _ => some (str "acme")) (str "prod.acme.default") rfl (str "1") 0 7 .default (str "prod")
  obtain ⟨written, hwritten⟩ := Option.isSome_iff_exists.1 (hwrite.2 (by decide))
  have hkey : handleHistoryRequest demoReader (str "acme.acme.a:b") 10 = .ok (str "history:prod:acme:acme.a:b") := by decide
  refine ⟨written, hwritten, ?_⟩
  rw [hkey, (hagree written hwritten).1 demoReader 10 _ rfl hkey]

/-- Channels that differ in a byte that is not UTF-8 share a stream: both are `a` and U+FFFD on the bus. -/
theorem invalid_channels_share_stream :
    writtenKey .default (str "prod") (acmeMessage (str "acme.a" ++ [0xFF])) =
        some (streamKey (str "prod") (str "acme") (str "a" ++ [0xEF, 0xBF, 0xBD])) ∧
      writtenKey .default (str "prod") (acmeMessage (str "acme.a" ++ [0xFF])) =
        writtenKey .default (str "prod") (acmeMessage (str "acme.a" ++ [0xFE])) := by
  decide +kernel

end Sukko.Server
