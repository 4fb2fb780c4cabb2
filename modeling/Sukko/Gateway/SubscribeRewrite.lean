import Sukko.Gateway.Link
import Sukko.Server.Admission
/-
# The subscribe that the gateway writes

`permitted` is what should reach the server. What is written has the list only.
-/

namespace Sukko.Gateway
open Protocol Server

def permitted (gw : Env) (p : Proxy) (d : SubscribeData) : SubscribeData :=
  { d with
    channels := ⟨gw.filterSubscribe p d.channels.items p.claims, []⟩
    channel := (gw.filterSubscribe p [d.channel] p.claims).headD [] }

def rewritten (gw : Env) (p : Proxy) (d : SubscribeData) : SubscribeData :=
  ⟨⟨gw.filterSubscribe p d.channels.items p.claims, []⟩, [], none⟩

/-- Two outcomes are the same for the client up to the words of a refusal: the session, and what the server does for it. -/
def SameEffect (r r' : Session × List Effect) : Prop :=
  r.1 = r'.1 ∧ (r.2.filter fun e => !e.refuses) = r'.2.filter fun e => !e.refuses

section
variable {gw : Env} {p : Proxy} {cfg : Server.Config} {c : Session} {d d' : SubscribeData}

theorem handleClientMessage_rewritten (gw : Env) (p : Proxy) (cfg : Server.Config) (inp : MessageInput) (c : Session)
    (m : ClientMessage) (hd : unmarshalSubscribe m.data = some d) :
    ∃ text, interceptSubscribe gw p m = some text ∧
      handleClientMessage cfg inp c text = subscribeDecoded cfg c (rewritten gw p d) := by
  obtain ⟨text, payload, ht, hm, hp⟩ := interceptSubscribe_arrives gw p m hd
  have h1 : msgTypeSubscribe ≠ msgTypeReconnect := by decide
  have h2 : msgTypeSubscribe ≠ msgTypeHeartbeat := by decide
  refine ⟨text, ht, ?_⟩
  simp only [handleClientMessage, hm, if_neg h1, if_neg h2, if_true]
  rw [handleSubscribe_decoded hp, rewritten, Env.filterSubscribe, filterSubscribeChannels_eq]

theorem served_of_admits (h : admits cfg c d = true) :
    ((subscribeDecoded cfg c d).2.filter fun e => !e.refuses) = [.subscribe (requested d),
      .ack respTypeSubscriptionAck (requested d) (c.register (requested d)).subscriptions.count] ++
        d.history.toList.map fun limit => Effect.historyRequest d.channel limit := by
  rw [subscribeDecoded_of_admits h]
  cases d.history <;> rfl

theorem served_of_not_admits (h : admits cfg c d = false) :
    (subscribeDecoded cfg c d).1 = c ∧ ((subscribeDecoded cfg c d).2.filter fun e => !e.refuses) = [] := by
  obtain ⟨e, heq, he⟩ := subscribeDecoded_of_not_admits h
  rw [heq]
  exact ⟨rfl, by rw [List.filter_singleton, he]; rfl⟩

theorem sameEffect_iff_of_history (hd : d.history = none) (hd' : d'.history ≠ none) :
    SameEffect (subscribeDecoded cfg c d) (subscribeDecoded cfg c d') ↔ admits cfg c d = false ∧ admits cfg c d' = false := by
  obtain ⟨limit, hl⟩ := Option.ne_none_iff_exists'.1 hd'
  cases h : admits cfg c d with
  | true =>
    refine iff_of_false (fun hsm => ?_) fun hb => by cases hb.1
    have heq := hsm.2
    rw [served_of_admits h, hd] at heq
    cases h' : admits cfg c d' with
    | true =>
      rw [served_of_admits h', hl] at heq
      cases congrArg List.length heq
    | false =>
      rw [(served_of_not_admits h').2] at heq
      cases heq
  | false =>
    obtain ⟨hsn, hs⟩ := served_of_not_admits h
    cases h' : admits cfg c d' with
    | true =>
      refine iff_of_false (fun hsm => ?_) fun hb => by cases hb.2
      have heq := hsm.2
      rw [hs, served_of_admits h'] at heq
      cases heq
    | false =>
      obtain ⟨hss, hsr⟩ := served_of_not_admits h'
      exact iff_of_true ⟨hsn.trans hss.symm, hs.trans hsr.symm⟩ ⟨rfl, rfl⟩

theorem subscribeDecoded_permitted (h : d.history = none) :
    subscribeDecoded cfg c (permitted gw p d) = subscribeDecoded cfg c (rewritten gw p d) := by
  simp only [subscribeDecoded, requestedChannels, permitted, rewritten, h, Option.toList_none, List.map_nil]

end

/-- **The rewrite keeps the permitted part** exactly when the request asks for no history or the server would turn both away. -/
theorem rewrite_keeps_permitted_iff (gw : Env) (p : Proxy) (cfg : Server.Config) (inp : MessageInput) (c : Session)
    (m : ClientMessage) (d : SubscribeData) (hd : unmarshalSubscribe m.data = some d) :
    ∃ text, interceptSubscribe gw p m = some text ∧
      (SameEffect (handleClientMessage cfg inp c text) (subscribeDecoded cfg c (permitted gw p d)) ↔
        d.history = none ∨ admits cfg c (rewritten gw p d) = false ∧ admits cfg c (permitted gw p d) = false) := by
  obtain ⟨text, htext, hhandled⟩ := handleClientMessage_rewritten gw p cfg inp c m hd
  refine ⟨text, htext, ?_⟩
  rw [hhandled]
  by_cases hhist : d.history = none
  · rw [subscribeDecoded_permitted hhist]
    exact iff_of_true ⟨rfl, rfl⟩ (.inl hhist)
  · have hpermitted : (permitted gw p d).history ≠ none := hhist
    rw [sameEffect_iff_of_history rfl hpermitted, or_iff_right hhist]

def historyServer : Server.Config := { demoServer with history := true }
def noReplay : MessageInput := ⟨⟨[], false, [], 0⟩, true, .ok []⟩
def listData : GoStr := str "\x7b\"channels\":[\"acme.news\",\"acme.private\"]\x7d"
def historyData : GoStr := str "\x7b\"channel\":\"acme.news\",\"history\":\x7b\"limit\":5\x7d\x7d"

theorem rewrite_keeps_permitted_iff_list :
    ∃ text, interceptSubscribe demoGateway demoProxy ⟨msgTypeSubscribe, listData⟩ = some text ∧
      SameEffect (handleClientMessage historyServer noReplay demoLink.conn.session text)
        (subscribeDecoded historyServer demoLink.conn.session ⟨⟨[str "acme.news"], []⟩, [], none⟩) := by
  obtain ⟨text, htext, h⟩ := rewrite_keeps_permitted_iff demoGateway demoProxy historyServer noReplay demoLink.conn.session
    ⟨msgTypeSubscribe, listData⟩ ⟨⟨[str "acme.news", str "acme.private"], []⟩, [], none⟩ (by decide +kernel)
  refine ⟨text, htext, ?_⟩
  have hpermitted : permitted demoGateway demoProxy ⟨⟨[str "acme.news", str "acme.private"], []⟩, [], none⟩ =
      ⟨⟨[str "acme.news"], []⟩, [], none⟩ := by decide +kernel
  rw [← hpermitted]
  exact h.2 (.inl rfl)

/-- **Bug**: the channel is permitted; the gateway writes an empty request, which is answered with an error. -/
theorem history_subscribe_refused : interceptSubscribe demoGateway demoProxy ⟨msgTypeSubscribe, historyData⟩ =
        some (str "\x7b\"type\":\"subscribe\",\"data\":\x7b\x7d\x7d") ∧
      (handleClientMessage historyServer noReplay demoLink.conn.session
        (str "\x7b\"type\":\"subscribe\",\"data\":\x7b\x7d\x7d")).2 =
          [sendError respTypeSubscribeError .invalidRequest "no channels specified"] ∧
      ((unmarshalSubscribe historyData).map fun d =>
        (subscribeDecoded historyServer demoLink.conn.session (permitted demoGateway demoProxy d)).2) =
          some [.subscribe [str "acme.news"], .ack respTypeSubscriptionAck [str "acme.news"] 1,
            .historyRequest (str "acme.news") 5] := by
  decide +kernel

end Sukko.Gateway
