import Sukko.Gateway.Proxy
import Sukko.Lib.Steps
import Sukko.Server.Messages
/-
# From the client to the server

One connection end to end. A label is one frame with everything the environment decides meanwhile; the log pairs every effect
on the server with the gateway as it was when the frame came.
-/

namespace Sukko.Gateway
open Json Protocol WebSocket Steps List
open Server (Effect Session Conn MessageInput readFrame handleClientMessage)

/-! ## The machine -/

structure Event where
  gw : Env
  proxy : Proxy
  effect : Effect

/-- Each channel of a subscription is returned by the filter, and the channel of a publish passes the check, for the
claims of the proxy. -/
def Event.authorized (e : Event) : Bool :=
  match e.effect with
  | .subscribe channels => channels.all (· ∈ e.gw.filterSubscribe e.proxy channels e.proxy.claims)
  | .publish channel _ => e.gw.canPublish e.proxy e.proxy.claims channel
  | _ => true

structure Link where
  proxy : Proxy
  running : Bool
  conn : Conn
  log : List Event

def openLink (p : Proxy) (c : Session) : Link := ⟨p, true, ⟨some ⟨none⟩, c⟩, []⟩

inductive Act
  | clientFrame (f : Frame) (gw : Env) (inp : ProxyInput) (msg : MessageInput) (allow : Bool)
  | backendFrame (payload : GoStr)

def readFrames (cfg : Server.Config) (msg : MessageInput) (allow : Bool) : Conn → List Frame → Conn × List Effect
  | conn, [] => (conn, [])
  | conn, f :: fs =>
    let (conn, effects) := readFrame cfg msg allow conn f
    let (conn, later) := readFrames cfg msg allow conn fs
    (conn, effects ++ later)

def Link.step (cfg : Server.Config) (l : Link) : Act → Option Link
  | .clientFrame f gw inp msg allow =>
    if l.running then
      let r := proxyClientFrame gw inp l.proxy f
      let served := readFrames cfg msg allow l.conn r.toBackend
      some ⟨r.proxy, r.running, served.1, l.log ++ served.2.map (⟨gw, l.proxy, ·⟩)⟩
    else none
  | .backendFrame payload => some { l with proxy := trackSubscriptionResponse l.proxy payload }

/-- What the gateway sees the way the server will: a text frame that is a whole message and does not start with
white space. -/
def Act.Inspectable : Act → Prop
  | .clientFrame f _ _ _ _ => f.op = .text → f.fin = true ∧ Stops isSpace f.payload
  | .backendFrame _ => True

/-! ## What the proxy forwards -/

section Forwarded
variable {gw : Env} {inp : ProxyInput} {p : Proxy}

theorem interceptAuth_tenantID (gw : Env) (inp : ProxyInput) (p : Proxy) (m : ClientMessage) :
    (interceptAuth gw inp p m).proxy.tenantID = p.tenantID := by
  unfold interceptAuth
  split
  · rfl
  · rename_i p' revoked exp hs
    obtain ⟨_, _, _, -, -, -, -, -, -, ht⟩ := interceptAuthRefresh_swapped hs
    exact ht

theorem interceptClientMessage_frame (gw : Env) (inp : ProxyInput) (p : Proxy) (msg : GoStr) :
    (interceptClientMessage gw inp p msg).proxy.tenantID = p.tenantID ∧
      ∃ revoked, (interceptClientMessage gw inp p msg).toBackend = forcedUnsubscribe revoked := by
  have hp : ∀ payload toClient, let r : Intercepted := ⟨p, payload, [], toClient⟩
      r.proxy.tenantID = p.tenantID ∧ ∃ revoked, r.toBackend = forcedUnsubscribe revoked :=
    fun _ _ => ⟨rfl, [], rfl⟩
  unfold interceptClientMessage
  dsimp only
  split
  · exact hp _ _
  split
  · exact hp _ _
  split
  · exact hp _ _
  split
  · exact hp _ _
  split
  · exact hp _ _
  split
  · split <;> exact hp _ _
  split
  · rename_i m _ _ _ _
    refine ⟨interceptAuth_tenantID gw inp p m, ?_⟩
    unfold interceptAuth
    split
    · exact ⟨[], rfl⟩
    · exact ⟨_, rfl⟩
  · exact hp _ _

theorem decoded_msgTypeUnsubscribe : Decoded msgTypeUnsubscribe := ⟨"unsubscribe".toList, by decide⟩

theorem inspected_forcedUnsubscribe {revoked : List GoStr} {g : Frame} (hg : g ∈ forcedUnsubscribe revoked) :
    g.fin = true ∧ Inspected gw p g.payload := by
  unfold forcedUnsubscribe at hg
  split at hg
  · cases hg
  obtain ⟨s, hs, rfl⟩ := mem_map.1 hg
  refine ⟨rfl, inspected_of_type fun m hm => ?_⟩
  rw [(unmarshalClientMessage_marshal decoded_msgTypeUnsubscribe (Option.mem_toList.1 hs) hm).1]
  decide

/-- **A text frame that is forwarded is a whole message and inspected**, if the client's frame is inspectable. -/
theorem inspected_proxyClientFrame {f g : Frame} (ht : p.tenantID ≠ [])
    (hf : f.op = .text → f.fin = true ∧ Stops isSpace f.payload)
    (hg : g ∈ (proxyClientFrame gw inp p f).toBackend) (htx : g.op = .text) :
    g.fin = true ∧ Inspected gw p g.payload := by
  unfold proxyClientFrame at hg
  split at hg
  · cases hg
  split at hg
  · rw [mem_singleton.1 hg] at htx
    cases htx
  · rename_i hop
    obtain ⟨hfn, hsp⟩ := hf hop
    rcases mem_append.1 hg with hg | hg
    · obtain ⟨revoked, hr⟩ := (interceptClientMessage_frame gw inp p f.payload).2
      rw [hr] at hg
      exact inspected_forcedUnsubscribe hg
    · obtain ⟨s, hs, rfl⟩ := mem_map.1 hg
      exact ⟨hfn, inspected_interceptClientMessage ht hsp (Option.mem_toList.1 hs)⟩
  · rename_i hn
    rw [mem_singleton.1 hg] at htx
    exact absurd htx hn

theorem proxyClientFrame_tenantID (gw : Env) (inp : ProxyInput) (p : Proxy) (f : Frame) :
    (proxyClientFrame gw inp p f).proxy.tenantID = p.tenantID := by
  unfold proxyClientFrame
  split
  · rfl
  split
  · rfl
  · exact (interceptClientMessage_frame gw inp p f.payload).1
  · rfl

theorem trackSubscriptionResponse_tenantID (p : Proxy) (payload : GoStr) :
    (trackSubscriptionResponse p payload).tenantID = p.tenantID := by
  unfold trackSubscriptionResponse
  split
  · rfl
  split
  · rfl
  split
  · rfl
  split <;> rfl

end Forwarded

/-! ## What the server does with it -/

section Served
variable {cfg : Server.Config} {msg : MessageInput} {allow : Bool} {e : Effect} {f : Frame}

def noTextPending (conn : Conn) : Prop := ∀ r, conn.reader = some r → r.NoText

variable {conn : Conn}

theorem readFrame_effects (hc : noTextPending conn) (he : e ∈ (readFrame cfg msg allow conn f).2) :
    f.op = .text ∧ e ∈ (handleClientMessage cfg msg conn.session f.payload).2 := by
  unfold readFrame at he
  split at he
  · cases he
  rename_i r hr
  split at he
  · cases he
  · cases he
  · cases he
  · cases he
  rename_i r' op payload hn
  split at he
  · rename_i ht
    rw [ht.1] at hn
    obtain ⟨hop, rfl⟩ := Reader.next_text (hc r hr) hn
    exact ⟨hop, he⟩
  · cases he

theorem readFrame_noTextPending (hc : noTextPending conn)
    (hf : f.op = .text → f.fin = true) : noTextPending (readFrame cfg msg allow conn f).1 := by
  unfold readFrame
  split
  · exact hc
  rename_i r hr
  split
  · rintro r' ⟨⟩
  · rintro r' ⟨⟩
  · exact hc
  · rename_i r' hn
    rintro _ ⟨⟩
    exact Reader.next_reader (hc r hr) hf (Or.inl hn)
  · rename_i r' op payload hn
    have hr' : r'.NoText := Reader.next_reader (hc r hr) hf (Or.inr ⟨op, payload, hn⟩)
    split
    · rintro _ ⟨⟩
      exact hr'
    · rintro _ ⟨⟩
      exact hr'

theorem readFrames_effects {P : GoStr → Prop} {fs : List Frame} (hc : noTextPending conn)
    (hfs : ∀ g ∈ fs, g.op = .text → g.fin = true ∧ P g.payload) :
    noTextPending (readFrames cfg msg allow conn fs).1 ∧
      ∀ e ∈ (readFrames cfg msg allow conn fs).2, ∃ c text, P text ∧ e ∈ (handleClientMessage cfg msg c text).2 := by
  induction fs generalizing conn with
  | nil => exact ⟨hc, fun e he => by cases he⟩
  | cons f fs ih =>
    have hf := hfs f mem_cons_self
    have hn : noTextPending (readFrame cfg msg allow conn f).1 := readFrame_noTextPending hc fun hop => (hf hop).1
    obtain ⟨hls, hl⟩ := ih hn fun g hg => hfs g (mem_cons_of_mem f hg)
    refine ⟨hls, forall_mem_append.2 ⟨fun e he => ?_, hl⟩⟩
    obtain ⟨hop, he⟩ := readFrame_effects hc he
    exact ⟨conn.session, f.payload, (hf hop).2, he⟩

theorem authorized_of_inspected {gw : Env} {p : Proxy} {c : Session} {text : GoStr}
    (htx : Inspected gw p text) (he : e ∈ (handleClientMessage cfg msg c text).2) :
    Event.authorized ⟨gw, p, e⟩ = true := by
  by_cases hac : e.isAccess = true
  · obtain ⟨m, hm, ⟨ht, d, channels, hd, hr, rfl⟩ | ⟨ht, d, hd, rfl⟩⟩ := Server.handleClientMessage_access he hac
    · obtain ⟨hh, ha⟩ := htx.subscribe m d hm ht hd
      -- a rewritten subscribe has no history, so the channels are the listed ones
      have hc : d.channels.items = channels := by
        simpa [Server.requestedChannels, hh] using hr
      subst hc
      simp only [Event.authorized, Env.filterSubscribe, filterSubscribeChannels_eq, all_eq_true, decide_eq_true_eq]
      exact fun ch hch => mem_filter.2 ⟨hch, ha ch hch⟩
    · exact htx.publish m d hm ht hd
  · cases e <;> first | rfl | exact absurd rfl hac

end Served

/-! ## Whole runs -/

structure LinkInv (l : Link) : Prop where
  tenant : l.proxy.tenantID ≠ []
  pending : noTextPending l.conn
  log : ∀ e ∈ l.log, e.authorized = true

theorem linkInv_step {cfg : Server.Config} {l l' : Link} {a : Act} (h : LinkInv l) (ha : a.Inspectable)
    (hs : l.step cfg a = some l') : LinkInv l' := by
  cases a with
  | clientFrame f gw inp msg allow =>
    simp only [Link.step] at hs
    split at hs
    · cases hs
      obtain ⟨hp, hef⟩ := readFrames_effects (P := Inspected gw l.proxy) h.pending
        fun g hg => inspected_proxyClientFrame h.tenant ha hg
      refine ⟨?_, hp, forall_mem_append.2 ⟨h.log, ?_⟩⟩
      · rw [proxyClientFrame_tenantID]
        exact h.tenant
      · intro ev hev
        obtain ⟨e, he, rfl⟩ := mem_map.1 hev
        obtain ⟨c, text, ht, he⟩ := hef e he
        exact authorized_of_inspected ht he
    · cases hs
  | backendFrame payload =>
    cases hs
    refine ⟨?_, h.pending, h.log⟩
    rw [trackSubscriptionResponse_tenantID]
    exact h.tenant

theorem linkInv_open {p : Proxy} (c : Session) (ht : p.tenantID ≠ []) : LinkInv (openLink p c) where
  tenant := ht
  pending := by
    rintro r ⟨⟩
    exact Reader.noText_empty
  log := by simp [openLink]

theorem linkInv_run {cfg : Server.Config} {l l' : Link} {acts : List Act} (h : LinkInv l)
    (hac : ∀ a ∈ acts, a.Inspectable) (hr : run (Link.step cfg) l acts = some l') : LinkInv l' :=
  run_invariant_along LinkInv (fun _ _ _ hi ha hs => linkInv_step hi ha hs) h
    (along_of_forall (fun a ha _ => hac a ha) l) hr

/-- **Gateway authorization is complete for inspectable frames**, over any sequence of frames with any rules, claims and limiters
along the way. -/
theorem access_authorized (cfg : Server.Config) (p : Proxy) (c : Session) (acts : List Act) (l : Link)
    (ht : p.tenantID ≠ []) (hacts : ∀ a ∈ acts, a.Inspectable)
    (hrun : run (Link.step cfg) (openLink p c) acts = some l) : ∀ e ∈ l.log, e.authorized = true :=
  (linkInv_run (linkInv_open c ht) hacts hrun).log

def demoRules : ProvApi.Provider :=
  { ProvApi.Provider.empty with
      channelRules := Replica.Map.empty.set (str "acme") ⟨[str "news"], [], [], [], [], []⟩
      snapshotReceived := true }

def demoGateway : Env := { demoEnv with provider := some demoRules }
def demoServer : Server.Config := ⟨some .direct, 10, 100, false⟩
def demoLink : Link := openLink demoProxy ⟨0, str "acme", .empty, .empty⟩

def demoFrame (op : Opcode) (fin : Bool) (payload : GoStr) : Act :=
  .clientFrame ⟨op, fin, payload⟩ demoGateway ⟨0, true, true⟩ ⟨⟨[], false, [], 0⟩, true, .ok []⟩ true

def subscribeText (channel : String) : GoStr :=
  str "\x7b\"type\":\"subscribe\",\"data\":\x7b\"channels\":[\"" ++ str channel ++ str "\"]\x7d\x7d"

def verdicts (acts : List Act) : Option (List (Effect × Bool)) :=
  (run (Link.step demoServer) demoLink acts).map fun l =>
    (l.log.filter (·.effect.isAccess)).map fun e => (e.effect, e.authorized)

theorem access_authorized_news :
    ∃ l, run (Link.step demoServer) demoLink [demoFrame .text true (subscribeText "acme.news")] = some l ∧
      (l.log.any (·.effect.isAccess)) = true ∧ ∀ e ∈ l.log, e.authorized = true := by
  obtain ⟨l, hl, hacc⟩ : ∃ l, run (Link.step demoServer) demoLink
      [demoFrame .text true (subscribeText "acme.news")] = some l ∧ (l.log.any (·.effect.isAccess)) = true :=
    ⟨_, rfl, by decide +kernel⟩
  refine ⟨l, hl, hacc, access_authorized demoServer demoProxy _ _ l (by decide) ?_ hl⟩
  intro a ha
  rw [mem_singleton.1 ha]
  exact fun _ => ⟨rfl, stops_cons (by decide)⟩

/-- **Bug**: a blank in front of the message, or a message in two frames: the server subscribes the client to a channel of
another tenant. -/
theorem access_unauthorized : verdicts [demoFrame .text true (str " " ++ subscribeText "globex.orders")] =
      some [(.subscribe [str "globex.orders"], false)] ∧
    verdicts [demoFrame .text false ((subscribeText "globex.orders").take 9),
        demoFrame .continuation true ((subscribeText "globex.orders").drop 9)] =
      some [(.subscribe [str "globex.orders"], false)] := by
  decide +kernel

end Sukko.Gateway
