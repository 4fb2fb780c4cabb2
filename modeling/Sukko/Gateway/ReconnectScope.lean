import Sukko.Gateway.Link
/-
# What a reconnect brings back

`docs/adr/0020` has the gateway check the channels of a `reconnect` against the channel rules. `interceptClientMessage` has
cases for `subscribe`, `publish` and `auth` only.
-/

namespace Sukko.Gateway
open Protocol WebSocket Server List

/-- Every channel whose messages the effect brings to the client is one that the filter returns for the claims of
the proxy. -/
def Event.scoped (e : Event) : Bool :=
  e.effect.delivers.all fun ch => ch ∈ e.gw.filterSubscribe e.proxy [ch] e.proxy.claims

theorem scoped_iff {gw : Env} {p : Proxy} {e : Effect} :
    Event.scoped ⟨gw, p, e⟩ = true ↔ ∀ ch ∈ e.delivers, subscribeAllowed gw.provider p.tenantID p.claims ch = true := by
  simp [Event.scoped, Env.filterSubscribe, filterSubscribeChannels_eq]

theorem interceptClientMessage_passThrough {gw : Env} {inp : ProxyInput} {p : Proxy} {msg : GoStr} {m : ClientMessage}
    (hm : unmarshalClientMessage msg = some m) (hs : m.type ≠ msgTypeSubscribe) (hp : m.type ≠ msgTypePublish)
    (ha : m.type ≠ msgTypeAuth) : interceptClientMessage gw inp p msg = ⟨p, some msg, [], []⟩ := by
  unfold interceptClientMessage
  dsimp only
  split
  · rfl
  split
  · rfl
  split
  · rfl
  split
  · rfl
  · rename_i m' hm'
    rw [hm] at hm'
    cases hm'
    rw [if_neg hs, if_neg hp, if_neg ha]

section Scope
variable (cfg : Server.Config) (gw : Env) (inp : ProxyInput) {l : Link} {msg : GoStr} {m : ClientMessage}

theorem step_reconnect (hr : l.running = true) (hrd : l.conn.reader = some ⟨none⟩)
    (hs : ¬ l.proxy.maxFrameSize < msg.length) (hm : unmarshalClientMessage msg = some m)
    (ht : m.type = msgTypeReconnect) (input : MessageInput) :
    ∃ l', l.step cfg (.clientFrame ⟨.text, true, msg⟩ gw inp input true) = some l' ∧
      l'.log = l.log ++ (handleReconnect cfg input.replay l.conn.session m.data).2.map (⟨gw, l.proxy, ·⟩) := by
  have hp : interceptClientMessage gw inp l.proxy msg = ⟨l.proxy, some msg, [], []⟩ :=
    interceptClientMessage_passThrough hm (by rw [ht]; decide) (by rw [ht]; decide) (by rw [ht]; decide)
  have hf : (proxyClientFrame gw inp l.proxy ⟨.text, true, msg⟩).toBackend = [⟨.text, true, msg⟩] := by
    simp only [proxyClientFrame, if_neg hs, hp]
    rfl
  have hre : (readFrames cfg input true l.conn [⟨.text, true, msg⟩]).2 =
      (handleReconnect cfg input.replay l.conn.session m.data).2 := by
    simp [readFrames, readFrame, hrd, Reader.next, Reader.data, handleClientMessage, hm, ht]
  refine ⟨_, if_pos hr, ?_⟩
  dsimp only
  rw [hf, hre]

/-- **When a reconnect keeps to the channel rules**: iff the filter returns every channel of the cursor that the server finds
replayable. -/
theorem reconnect_scoped_iff (l : Link) (msg : GoStr) (m : ClientMessage) (req : ReconnectData) (b : Backend) (hrunning : l.running = true)
    (hreader : l.conn.reader = some ⟨none⟩) (hsize : ¬ l.proxy.maxFrameSize < msg.length)
    (hm : unmarshalClientMessage msg = some m) (htype : m.type = msgTypeReconnect)
    (hreq : unmarshalReconnect m.data = some req) (hb : cfg.backend = some b) :
    (∀ input l', l.step cfg (.clientFrame ⟨.text, true, msg⟩ gw inp input true) = some l' →
      ∀ e ∈ l'.log.drop l.log.length, e.scoped = true) ↔
    ∀ entry ∈ req.lastPos, Replayable cfg b l.conn.session entry →
      entry.1 ∈ gw.filterSubscribe l.proxy [entry.1] l.proxy.claims := by
  constructor
  · intro h entry hentry hrep
    let input : MessageInput := ⟨⟨entry :: req.lastPos.erase entry, true, [], 0⟩, true, .ok []⟩
    have horder : input.replay.iterate req.lastPos = entry :: req.lastPos.erase entry :=
      if_pos (isPerm_iff.2 (perm_cons_erase hentry).symm)
    obtain ⟨l', hstep, hlog⟩ := step_reconnect cfg gw inp hrunning hreader hsize hm htype input
    have hauth : entry.1 ∈ (authorizeLastPos cfg b l.conn.session (input.replay.iterate req.lastPos)).authorized := by
      rw [horder]
      exact authorizeLastPos_cons hrep
    obtain ⟨e, he, hch⟩ := (mem_delivers_handleReconnect hreq hb).2 hauth
    have hscoped := h input l' hstep ⟨gw, l.proxy, e⟩ (by
      rw [hlog, drop_left]
      exact mem_map_of_mem he)
    simpa [Env.filterSubscribe, filterSubscribeChannels_eq] using scoped_iff.1 hscoped entry.1 hch
  · intro h input l' hstep e he
    obtain ⟨l'', hstep', hlog⟩ := step_reconnect cfg gw inp hrunning hreader hsize hm htype input
    cases hstep.symm.trans hstep'
    rw [hlog, drop_left] at he
    obtain ⟨effect, heffect, rfl⟩ := mem_map.1 he
    refine scoped_iff.2 fun ch hch => ?_
    obtain ⟨entry, hentry, rfl, hrep⟩ := mem_authorizeLastPos ((mem_delivers_handleReconnect hreq hb).1 ⟨effect, heffect, hch⟩)
    have hallowed := h entry ((input.replay.iterate_perm req.lastPos).mem_iff.1 hentry) hrep
    simpa [Env.filterSubscribe, filterSubscribeChannels_eq] using hallowed

end Scope

def demoKafkaServer : Server.Config := ⟨some (.kafka (str "prod") true (some demoRules)), 10, 100, false⟩

def lastPosText (channel : String) : GoStr :=
  str "\x7b\"last_pos\":\x7b\"" ++ str channel ++ str "\":\"1-5\"\x7d\x7d"

def reconnectText (channel : String) : GoStr :=
  str "\x7b\"type\":\"reconnect\",\"data\":" ++ lastPosText channel ++ str "\x7d"

theorem reconnect_scoped_iff_news : Replayable demoKafkaServer (.kafka (str "prod") true (some demoRules)) demoLink.conn.session
      (str "acme.news", str "1-5") ∧
    ∀ input l', demoLink.step demoKafkaServer
        (.clientFrame ⟨.text, true, reconnectText "acme.news"⟩ demoGateway ⟨0, true, true⟩ input true) = some l' →
      ∀ e ∈ l'.log.drop demoLink.log.length, e.scoped = true := by
  refine ⟨by decide +kernel, ?_⟩
  refine (reconnect_scoped_iff demoKafkaServer demoGateway ⟨0, true, true⟩ demoLink (reconnectText "acme.news")
    ⟨msgTypeReconnect, lastPosText "acme.news"⟩ ⟨[], [(str "acme.news", str "1-5")]⟩
    (.kafka (str "prod") true (some demoRules)) rfl rfl (by decide +kernel) (by decide +kernel) rfl
    (by decide +kernel) rfl).2 ?_
  intro entry hentry _
  rw [mem_singleton.1 hentry]
  decide +kernel

/-- **Bug**: nobody may subscribe to `acme.private`, and a reconnect that names it gets its messages. -/
theorem reconnect_not_scoped :
    ((demoLink.step demoKafkaServer (.clientFrame ⟨.text, true, reconnectText "acme.private"⟩ demoGateway ⟨0, true, true⟩
        ⟨⟨[], false, [(str "acme.private", str "1")], 10⟩, true, .ok []⟩ true)).map
      (·.log.map fun e => (e.effect, e.scoped))) =
    some [(.resume [str "acme.private"], false), (.replayed (str "acme.private") (str "1"), false),
      (.reconnectAck 1 (str "Replayed 1 missed messages"), true)] := by
  decide +kernel

end Sukko.Gateway
