import Sukko.Gateway.AckTracking
import Sukko.Gateway.Link
/-
# What a refresh takes away

A refresh sends one unsubscribe for the acknowledged channels that the new claims do not permit (`gateway/proxy.go:811`). The
server works between the snapshot of the tracked channels and the rest. `settled` is the largest set the server can have after
all messages under way.
-/

namespace Sukko.Gateway.RefreshScope
open Auth Json Protocol Server Steps List Option

/-! ## What a message does to the subscriptions -/

def subscribeChannels (cfg : Server.Config) (data : GoStr) : List GoStr :=
  match unmarshalSubscribe data with
  | none => []
  | some d =>
    match requestedChannels cfg d with
    | .error _ => []
    | .ok channels => channels

def reconnectChannels (data : GoStr) : List GoStr := ((unmarshalReconnect data).map (·.lastPos.map Prod.fst)).getD []
def unsubscribeChannels (data : GoStr) : List GoStr := ((unmarshal unsubscribeFields ⟨.nil⟩ data).map (·.channels.items)).getD []

def adds (cfg : Server.Config) (text : GoStr) : List GoStr :=
  match unmarshalClientMessage text with
  | none => []
  | some m =>
    if m.type = msgTypeReconnect then reconnectChannels m.data
    else if m.type = msgTypeSubscribe then subscribeChannels cfg m.data
    else []

def removes (text : GoStr) : List GoStr :=
  match unmarshalClientMessage text with
  | none => []
  | some m => if m.type = msgTypeUnsubscribe then unsubscribeChannels m.data else []

def settle (cfg : Server.Config) (channels : List GoStr) (text : GoStr) : List GoStr :=
  (channels ++ adds cfg text).filter (· ∉ removes text)

def settled (cfg : Server.Config) (channels : List GoStr) (texts : List GoStr) : List GoStr := texts.foldl (settle cfg) channels

section Settle
variable {cfg : Server.Config} {channels channels' texts : List GoStr} {text ch : GoStr}

theorem mem_settle : ch ∈ settle cfg channels text ↔ (ch ∈ channels ∨ ch ∈ adds cfg text) ∧ ch ∉ removes text := by
  rw [settle, mem_filter, mem_append, decide_eq_true_eq]

theorem settle_mono (h : channels ⊆ channels') : settle cfg channels text ⊆ settle cfg channels' text := by
  intro ch hch
  rw [mem_settle] at hch ⊢
  exact ⟨hch.1.imp_left (h ·), hch.2⟩

theorem settled_mono (h : channels ⊆ channels') : settled cfg channels texts ⊆ settled cfg channels' texts := by
  induction texts generalizing channels channels' with
  | nil => exact h
  | cons text texts ih => exact ih (settle_mono h)

theorem settled_append (texts texts' : List GoStr) :
    settled cfg channels (texts ++ texts') = settled cfg (settled cfg channels texts) texts' := List.foldl_append

end Settle

section Handlers
variable {cfg : Server.Config} {c : Session} {data ch : GoStr}

theorem mem_handleReconnect {inp : ReplayInput} (h : ch ∈ (handleReconnect cfg inp c data).1.subscriptions.channels) :
    ch ∈ c.subscriptions.channels ∨ ch ∈ reconnectChannels data := by
  have hrg : ∀ req b, unmarshalReconnect data = some req →
      ch ∈ (c.register (authorizeLastPos cfg b c (inp.iterate req.lastPos)).authorized).subscriptions.channels →
      ch ∈ c.subscriptions.channels ∨ ch ∈ reconnectChannels data := by
    intro req b hr hm
    rcases SubscriptionSet.mem_addMultiple.1 hm with hold | hn
    · exact .inl hold
    · obtain ⟨e, he, rfl, -⟩ := mem_authorizeLastPos hn
      right
      rw [reconnectChannels, hr]
      exact mem_map_of_mem ((inp.iterate_perm req.lastPos).mem_iff.1 he)
  unfold handleReconnect at h
  split at h
  · exact .inl h
  rename_i req hr
  split at h
  · exact .inl h
  · rename_i b hb
    dsimp only at h
    split at h
    · exact .inl h
    · split at h <;> exact hrg req b hr h

theorem mem_handleSubscribe (h : ch ∈ (handleSubscribe cfg c data).1.subscriptions.channels) :
    ch ∈ c.subscriptions.channels ∨ ch ∈ subscribeChannels cfg data := by
  unfold handleSubscribe at h
  split at h
  · exact .inl h
  rename_i d hd
  split at h
  · exact .inl h
  rename_i channels hr
  split at h
  · exact .inl h
  · dsimp only at h
    split at h
    · exact .inl h
    · refine (SubscriptionSet.mem_addMultiple.1 h).imp_right fun hch => ?_
      simpa only [subscribeChannels, hd, hr] using hch

theorem mem_handleUnsubscribe (h : ch ∈ (handleUnsubscribe c data).1.subscriptions.channels) :
    ch ∈ c.subscriptions.channels ∧ ch ∉ unsubscribeChannels data := by
  unfold handleUnsubscribe at h
  unfold unsubscribeChannels
  split at h
  · rename_i hn
    rw [hn]
    exact ⟨h, not_mem_nil⟩
  · rename_i d hd
    rw [hd]
    exact SubscriptionSet.mem_removeMultiple.1 h

theorem handleClientMessage_settle (cfg : Server.Config) (inp : MessageInput) (c : Session) (text : GoStr) :
    (handleClientMessage cfg inp c text).1.subscriptions.channels ⊆ settle cfg c.subscriptions.channels text := by
  intro ch h
  rw [mem_settle]
  unfold handleClientMessage at h
  unfold adds removes
  cases hm : unmarshalClientMessage text with
  | none =>
    rw [hm] at h
    exact ⟨.inl h, not_mem_nil⟩
  | some m =>
    rw [hm] at h
    dsimp only at h ⊢
    split at h
    · rename_i ht
      have ho : m.type ≠ msgTypeUnsubscribe := by rw [ht]; decide
      rw [if_pos ht, if_neg ho]
      exact ⟨mem_handleReconnect h, not_mem_nil⟩
    rename_i hr
    rw [if_neg hr]
    have hk : ∀ P : Prop, [Decidable P] → ch ∈ c.subscriptions.channels → m.type ≠ msgTypeUnsubscribe →
        (ch ∈ c.subscriptions.channels ∨ ch ∈ if P then subscribeChannels cfg m.data else []) ∧
          ch ∉ if m.type = msgTypeUnsubscribe then unsubscribeChannels m.data else [] := by
      intro P _ hch ho
      rw [if_neg ho]
      exact ⟨.inl hch, not_mem_nil⟩
    split at h
    · rename_i ht
      exact hk _ h (by rw [ht]; decide)
    split at h
    · rename_i ht
      have ho : m.type ≠ msgTypeUnsubscribe := by rw [ht]; decide
      rw [if_pos ht, if_neg ho]
      exact ⟨mem_handleSubscribe h, not_mem_nil⟩
    split at h
    · rename_i ht
      rw [if_pos ht]
      obtain ⟨hch, hrm⟩ := mem_handleUnsubscribe h
      exact ⟨.inl hch, hrm⟩
    rename_i ho
    split at h
    · exact hk _ h ho
    split at h
    · exact hk _ h ho
    split at h <;> exact hk _ h ho

end Handlers

/-! ## The unsubscribe of a refresh -/

theorem setMember_unsubscribeChannels (v : Value) (d : UnsubscribeData) : setMember unsubscribeFields "channels".toList v d =
    (decodeStrings v d.channels).map fun c => { d with channels := c } := rfl

theorem unsubscribeChannels_compact {channels : List GoStr} (hne : channels ≠ []) (hdc : ∀ c ∈ channels, Decoded c) :
    unsubscribeChannels (channelsTree channels).compact.text = channels := by
  have hd : (channelsTree channels).compact.depth ≤ maxNestingDepth := by
    rw [Value.depth_compact]
    exact (depth_channelsTree channels).trans (by decide)
  have hc : ∀ (v : Value) (d : UnsubscribeData),
      decodeObject unsubscribeFields v.compact d = decodeObject unsubscribeFields v d := by
    refine decodeObject_compact_eq fun f hf v d => ?_
    rw [mem_singleton.1 hf]
    simp only [decodeStrings_compact]
  rw [unsubscribeChannels, unmarshal_written hd, hc, channelsTree, if_neg hne, decodeObject_object, setMembers,
    setMember_unsubscribeChannels, decodeStrings_decoded_quoted hdc]
  rfl

theorem forcedUnsubscribe_spec {revoked : List GoStr} (hne : revoked ≠ []) (hd : ∀ c ∈ revoked, Decoded c) :
    ∃ text, (forcedUnsubscribe revoked).map (·.payload) = [text] ∧ removes text = revoked ∧ ∀ cfg, adds cfg text = [] := by
  obtain ⟨text, hm, hms⟩ := channelsMessage_arrives decoded_msgTypeUnsubscribe revoked
  refine ⟨text, by rw [forcedUnsubscribe, if_neg hne, hm]; rfl, ?_, fun cfg => ?_⟩
  · simp only [removes, hms, if_true, unsubscribeChannels_compact hne hd]
  · have h1 : msgTypeUnsubscribe ≠ msgTypeReconnect := by decide
    have h2 : msgTypeUnsubscribe ≠ msgTypeSubscribe := by decide
    simp only [adds, hms, if_neg h1, if_neg h2]

theorem adds_interceptSubscribe {gw : Env} {p : Proxy} {cfg : Server.Config} {data out ch : GoStr}
    (h : interceptSubscribe gw p ⟨msgTypeSubscribe, data⟩ = some out) (hch : ch ∈ adds cfg out) :
    subscribeAllowed gw.provider p.tenantID p.claims ch = true := by
  have hi : Inspected gw p out := inspected_interceptSubscribe rfl h
  have ht : ∀ m, unmarshalClientMessage out = some m → m.type = msgTypeSubscribe := by
    intro m hm
    unfold interceptSubscribe at h
    split at h <;> exact (unmarshalClientMessage_marshal decoded_msgTypeSubscribe h hm).1
  unfold adds at hch
  split at hch
  · cases hch
  rename_i m hm
  have hs := ht m hm
  have ho : m.type ≠ msgTypeReconnect := by rw [hs]; decide
  rw [if_neg ho, if_pos hs] at hch
  unfold subscribeChannels at hch
  split at hch
  · cases hch
  rename_i d hd
  obtain ⟨hh, ha⟩ := hi.subscribe m d hm hs hd
  simp only [requestedChannels, hh] at hch
  exact ha ch hch

/-! ## The machine -/

structure State where
  proxy : Proxy
  session : Session
  toServer : List GoStr
  toClient : List GoStr
  refresh : Option (Claims × List GoStr)

def init (p : Proxy) (c : Session) : State := ⟨p, c, [], [], none⟩

inductive Act where
  | subscribe (data : GoStr)
  /-- A message of another kind, which the gateway forwards as it is: reconnect, unsubscribe, heartbeat and so on. -/
  | pass (text : GoStr)
  | refresh (lib : JWTLib) (validator : Option Validator) (now : Time) (allow : Bool) (token : Option GoStr)
  | swap
  /-- The server takes the next message; its limiter may drop it, and an acknowledgment may find the buffer full. -/
  | serve (inp : MessageInput) (allow room : Bool)
  | track

def ackFrames (effects : List Effect) : List GoStr :=
  effects.filterMap fun
    | .ack type channels count =>
      if type = respTypeSubscriptionAck then some (⟨.subscription, channels, count⟩ : Ack).frame
      else some (⟨.unsubscription, channels, count⟩ : Ack).frame
    | _ => none

def isPassed (text : GoStr) : Bool :=
  (unmarshalClientMessage text).all fun m => m.type ≠ msgTypeSubscribe && m.type ≠ msgTypePublish && m.type ≠ msgTypeAuth

def granted (gw : Env) (p : Proxy) (lib : JWTLib) (validator : Option Validator) (now : Time) (allow : Bool)
    (token : Option GoStr) : Option Claims :=
  match interceptAuthRefresh { gw with lib := lib, validator := validator } now allow token p with
  | .denied _ => none
  | .swapped p' _ _ => p'.claims

def revokedOf (gw : Env) (p : Proxy) (c : Claims) (snapshot : List GoStr) : List GoStr :=
  revokedChannels gw { p with subscribedChannels := snapshot } c

def step (gw : Env) (cfg : Server.Config) (s : State) : Act → Option State
  | .subscribe data =>
    if s.refresh.isSome then none
    else some { s with toServer := s.toServer ++ (interceptSubscribe gw s.proxy ⟨msgTypeSubscribe, data⟩).toList }
  | .pass text =>
    if s.refresh.isSome || !isPassed text then none else some { s with toServer := s.toServer ++ [text] }
  | .refresh lib validator now allow token =>
    if s.refresh.isSome then none
    else some { s with
      refresh := (granted gw s.proxy lib validator now allow token).map fun c => (c, s.proxy.subscribedChannels) }
  | .swap =>
    match s.refresh with
    | none => none
    | some (c, snapshot) =>
      some { s with
        proxy := { s.proxy with
          claims := some c, apiKeyOnly := false
          subscribedChannels := s.proxy.subscribedChannels.filter (· ∉ revokedOf gw s.proxy c snapshot) }
        toServer := s.toServer ++ (forcedUnsubscribe (revokedOf gw s.proxy c snapshot)).map (·.payload)
        refresh := none }
  | .serve inp allow room =>
    match s.toServer with
    | [] => none
    | text :: rest =>
      if allow then
        let r := handleClientMessage cfg inp s.session text
        some { s with session := r.1, toServer := rest, toClient := s.toClient ++ if room then ackFrames r.2 else [] }
      else some { s with toServer := rest }
  | .track =>
    match s.toClient with
    | [] => none
    | frame :: rest => some { s with proxy := trackSubscriptionResponse s.proxy frame, toClient := rest }

def State.outcome (s : State) (cfg : Server.Config) : List GoStr := settled cfg s.session.subscriptions.channels s.toServer

/-- What keeps the refresh complete: everything the server has or may get is tracked when a token is accepted, a reconnect names
permitted channels, and no unsubscribe is dropped by the limiter. -/
def covered (gw : Env) (cfg : Server.Config) (s : State) : Act → Bool
  | .pass text => (adds cfg text).all (subscribeAllowed gw.provider s.proxy.tenantID s.proxy.claims)
  | .refresh lib validator now allow token =>
    (granted gw s.proxy lib validator now allow token).isNone || (s.outcome cfg).all (· ∈ s.proxy.subscribedChannels)
  | .serve _ allow _ => allow || s.toServer.head?.all fun text => removes text = []
  | _ => true

/-! ## What the gateway tracks -/

theorem trackSubscriptionResponse_claims (p : Proxy) (payload : GoStr) :
    (trackSubscriptionResponse p payload).claims = p.claims := by
  unfold trackSubscriptionResponse
  split
  · rfl
  split
  · rfl
  split
  · rfl
  split <;> rfl

theorem unmarshalAck_decoded {payload : GoStr} {m : AckMessage} (h : unmarshal ackFields ⟨[], .nil, .nil⟩ payload = some m) :
    ∀ c ∈ m.subscribed.items, Decoded c := by
  obtain ⟨v, -, hd⟩ := bind_eq_some_iff.1 h
  have hset : ∀ f ∈ ackFields, ∀ v (a b : AckMessage), (∀ x ∈ a.subscribed.items ++ a.subscribed.stale, Decoded x) →
      f.set v a = some b → ∀ x ∈ b.subscribed.items ++ b.subscribed.stale, Decoded x := by
    intro f hf v a b ha hset
    simp only [ackFields, mem_cons, not_mem_nil, or_false] at hf
    rcases hf with rfl | rfl | rfl
    · obtain ⟨c, hc, rfl⟩ := map_eq_some_iff.1 hset
      exact ha
    · obtain ⟨c, hc, rfl⟩ := map_eq_some_iff.1 hset
      exact decodeStrings_decoded ha hc
    · obtain ⟨c, hc, rfl⟩ := map_eq_some_iff.1 hset
      exact ha
  have hk := @decodeObject_keeps _ _ _ (fun m => ∀ x ∈ m.subscribed.items ++ m.subscribed.stale, Decoded x) hset _ _
    (by simp [StrSlice.nil]) hd
  exact fun c hc => hk c (mem_append_left _ hc)

theorem track_decoded {p : Proxy} (h : ∀ ch ∈ p.subscribedChannels, Decoded ch) (payload : GoStr) :
    ∀ ch ∈ (trackSubscriptionResponse p payload).subscribedChannels, Decoded ch := by
  intro ch hch
  unfold trackSubscriptionResponse at hch
  split at hch
  · exact h ch hch
  split at hch
  · exact h ch hch
  rename_i m hm
  split at hch
  · rcases mem_foldl_insert.1 hch with hold | hn
    · exact h ch hold
    · exact unmarshalAck_decoded hm ch hn
  split at hch
  · exact h ch (mem_of_mem_filter hch)
  · exact h ch hch

/-! ## The invariant -/

structure Inv (gw : Env) (cfg : Server.Config) (s : State) : Prop where
  decoded : ∀ ch ∈ s.proxy.subscribedChannels, Decoded ch
  allowed : s.refresh = none → ∀ ch ∈ s.outcome cfg, subscribeAllowed gw.provider s.proxy.tenantID s.proxy.claims ch = true
  snapshot : ∀ c snap, s.refresh = some (c, snap) → (∀ ch ∈ snap, Decoded ch) ∧ s.outcome cfg ⊆ snap

section Steps
variable {gw : Env} {cfg : Server.Config} {s s' : State} {snap : List GoStr} {c : Claims} {p : Proxy}

theorem inv_init {c : Session} (hp : p.subscribedChannels = []) (hc : c.subscriptions.channels = []) :
    Inv gw cfg (init p c) where
  decoded ch h := by
    simp only [init, hp] at h
    cases h
  allowed _ ch h := by
    simp only [State.outcome, init, settled, foldl_nil, hc] at h
    cases h
  snapshot _ _ h := by cases h

theorem mem_revokedOf {ch : GoStr} :
    ch ∈ revokedOf gw p c snap ↔ ch ∈ snap ∧ subscribeAllowed gw.provider p.tenantID (some c) ch = false := by
  simp only [revokedOf, revokedChannels, Env.filterSubscribe, filterSubscribeChannels_eq, mem_filter, decide_eq_true_eq,
    not_and, Bool.not_eq_true]
  constructor
  · rintro ⟨hm, h⟩
    exact ⟨hm, h hm⟩
  · rintro ⟨hm, h⟩
    exact ⟨hm, fun _ => h⟩

variable (hi : Inv gw cfg s)
include hi

theorem Inv.send (hid : s.refresh = none) {texts : List GoStr} (hl : texts.length ≤ 1)
    (ha : ∀ text ∈ texts, ∀ ch ∈ adds cfg text, subscribeAllowed gw.provider s.proxy.tenantID s.proxy.claims ch = true) :
    Inv gw cfg { s with toServer := s.toServer ++ texts } where
  decoded := hi.decoded
  allowed _ ch hch := by
    simp only [State.outcome, settled_append] at hch
    match texts, hl with
    | [], _ => exact hi.allowed hid ch hch
    | [text], _ =>
      rcases (mem_settle.1 hch).1 with hold | hn
      · exact hi.allowed hid ch hold
      · exact ha text mem_cons_self ch hn
  snapshot c snap h := by
    rw [hid] at h
    cases h

theorem Inv.served {session : Session} {rest toClient : List GoStr}
    (hs : settled cfg session.subscriptions.channels rest ⊆ s.outcome cfg) :
    Inv gw cfg { s with session := session, toServer := rest, toClient := toClient } where
  decoded := hi.decoded
  allowed hr ch hch := hi.allowed hr ch (hs hch)
  snapshot c snap h := ⟨(hi.snapshot c snap h).1, fun _ hch => (hi.snapshot c snap h).2 (hs hch)⟩

theorem Inv.track (frame : GoStr) {rest : List GoStr} :
    Inv gw cfg { s with proxy := trackSubscriptionResponse s.proxy frame, toClient := rest } where
  decoded := track_decoded hi.decoded frame
  allowed hr ch hch := by
    simp only [trackSubscriptionResponse_tenantID, trackSubscriptionResponse_claims]
    exact hi.allowed hr ch hch
  snapshot := hi.snapshot

theorem Inv.granted {refresh : Option (Claims × List GoStr)} (hid : s.refresh = none)
    (h : ∀ c snap, refresh = some (c, snap) → snap = s.proxy.subscribedChannels ∧ s.outcome cfg ⊆ snap) :
    Inv gw cfg { s with refresh := refresh } where
  decoded := hi.decoded
  allowed _ := hi.allowed hid
  snapshot c snap hr := by
    obtain ⟨rfl, hs⟩ := h c snap hr
    exact ⟨hi.decoded, hs⟩

theorem Inv.swap (hr : s.refresh = some (c, snap)) : Inv gw cfg { s with
      proxy := { s.proxy with
        claims := some c, apiKeyOnly := false
        subscribedChannels := s.proxy.subscribedChannels.filter (· ∉ revokedOf gw s.proxy c snap) }
      toServer := s.toServer ++ (forcedUnsubscribe (revokedOf gw s.proxy c snap)).map (·.payload)
      refresh := none } where
  decoded ch h := hi.decoded ch (List.mem_of_mem_filter h)
  allowed _ ch hch := by
    obtain ⟨hd, hs⟩ := hi.snapshot c snap hr
    have hl : ch ∈ snap ∧ ch ∉ revokedOf gw s.proxy c snap := by
      simp only [State.outcome, settled_append] at hch
      by_cases hne : revokedOf gw s.proxy c snap = []
      · rw [hne] at hch ⊢
        exact ⟨hs hch, not_mem_nil⟩
      · obtain ⟨text, ht, hrm, ha⟩ := forcedUnsubscribe_spec hne fun ch hch => hd ch (mem_revokedOf.1 hch).1
        rw [ht] at hch
        obtain ⟨hold | hn, hnt⟩ := mem_settle.1 hch
        · rw [hrm] at hnt
          exact ⟨hs hold, hnt⟩
        · rw [ha] at hn
          cases hn
    by_contra hc
    exact hl.2 (mem_revokedOf.2 ⟨hl.1, Bool.eq_false_iff.2 hc⟩)
  snapshot _ _ h := by cases h

theorem Inv.step {a : Act} (hok : covered gw cfg s a = true) (hs : step gw cfg s a = some s') : Inv gw cfg s' := by
  cases a with simp only [RefreshScope.step] at hs
  | subscribe data =>
    split at hs
    · cases hs
    rename_i hid
    cases hs
    refine hi.send (by simpa using hid) ?_ fun text ht ch hch => ?_
    · cases interceptSubscribe gw s.proxy ⟨msgTypeSubscribe, data⟩ <;> simp
    · exact adds_interceptSubscribe (mem_toList.1 ht) hch
  | pass text =>
    split at hs
    · cases hs
    rename_i hp
    cases hs
    simp only [Bool.or_eq_true, not_or, Bool.not_eq_true, isSome_eq_false_iff, isNone_iff_eq_none] at hp
    refine hi.send hp.1 (Nat.le_refl 1) fun text' ht ch hch => ?_
    rw [mem_singleton.1 ht] at hch
    exact all_eq_true.1 hok ch hch
  | refresh lib validator now allow token =>
    split at hs
    · cases hs
    rename_i hid
    cases hs
    refine hi.granted (by simpa using hid) fun c snap h => ?_
    obtain ⟨c', hc', heq⟩ := map_eq_some_iff.1 h
    cases heq
    refine ⟨rfl, fun ch hch => ?_⟩
    simp only [covered, hc', isNone_some, Bool.false_or] at hok
    simpa using all_eq_true.1 hok ch hch
  | swap =>
    split at hs
    · cases hs
    rename_i c snap hr
    cases hs
    exact hi.swap hr
  | serve inp allow room =>
    split at hs
    · cases hs
    rename_i text rest hq
    have ho : s.outcome cfg = settled cfg (settle cfg s.session.subscriptions.channels text) rest := by
      rw [State.outcome, hq]
      rfl
    split at hs
    · cases hs
      refine hi.served ?_
      rw [ho]
      exact settled_mono (handleClientMessage_settle cfg inp s.session text)
    · rename_i hd
      cases hs
      refine hi.served ?_
      rw [ho]
      refine settled_mono fun ch hch => mem_settle.2 ⟨.inl hch, ?_⟩
      have hrm : removes text = [] := by simpa [covered, hd, hq] using hok
      rw [hrm]
      exact not_mem_nil
  | track =>
    split at hs
    · cases hs
    · cases hs
      exact hi.track _

end Steps

/-- **A refresh takes away what the new claims do not permit**, in every run that is `covered`, once nothing is under way. -/
theorem refresh_covers {gw : Env} {cfg : Server.Config} {p : Proxy} {c : Session} (hp : p.subscribedChannels = [])
    (hc : c.subscriptions.channels = []) {as : List Act} {s : State} (hrun : run (step gw cfg) (init p c) as = some s)
    (hok : Along (step gw cfg) (fun s a => covered gw cfg s a = true) (init p c) as) (hsent : s.toServer = [])
    (hidle : s.refresh = none) :
    ∀ ch ∈ s.session.subscriptions.channels, subscribeAllowed gw.provider s.proxy.tenantID s.proxy.claims ch = true := by
  have hinv : Inv gw cfg s := run_invariant_along (Inv gw cfg) (fun _ _ _ hi hk hs => hi.step hk hs) (inv_init hp hc) hok hrun
  intro ch hch
  refine hinv.allowed hidle ch ?_
  rw [State.outcome, hsent]
  exact hch

def traderRules : ProvApi.Provider :=
  { ProvApi.Provider.empty with
      channelRules := Replica.Map.empty.set (str "acme") ⟨[], [(str "traders", [str "orders"])], [], [], [], []⟩
      snapshotReceived := true }

def traderGateway : Env := { demoEnv with provider := some traderRules }

def trader : State :=
  init { demoProxy with claims := some { demoClaims (str "first") with groups := [str "traders"] } } ⟨0, str "acme", .empty, .empty⟩

def subscribeOrders : Act := .subscribe (str "\x7b\"channels\":[\"acme.orders\"]\x7d")
def leaveTraders : Act := .refresh demoLib demoEnv.validator 0 true (some (str "good"))
def serveNext : Act := .serve ⟨⟨[], false, [], 0⟩, true, .ok []⟩ true true

structure Verdict where
  toServer : List GoStr
  toClient : List GoStr
  idle : Bool
  channels : List (GoStr × Bool)
deriving DecidableEq

def verdict (as : List Act) : Option Verdict :=
  (run (step traderGateway demoServer) trader as).map fun s =>
    ⟨s.toServer, s.toClient, s.refresh.isNone, s.session.subscriptions.channels.map fun ch =>
      (ch, subscribeAllowed traderGateway.provider s.proxy.tenantID s.proxy.claims ch)⟩

def coveredRun : List Act := [subscribeOrders, serveNext, .track, leaveTraders, .swap, serveNext, .track]

theorem refresh_covers_coveredRun :
    verdict [subscribeOrders, serveNext] = some ⟨[], [(⟨.subscription, [str "acme.orders"], 1⟩ : Ack).frame], true,
      [(str "acme.orders", true)]⟩ ∧
    ∃ s, run (step traderGateway demoServer) trader coveredRun = some s ∧ ∀ ch ∈ s.session.subscriptions.channels,
        subscribeAllowed traderGateway.provider s.proxy.tenantID s.proxy.claims ch = true := by
  have hverdict : verdict coveredRun = some ⟨[], [], true, []⟩ := by decide +kernel
  obtain ⟨s, hs, hv⟩ := map_eq_some_iff.1 hverdict
  have hsent : s.toServer = [] := congrArg Verdict.toServer hv
  have hidle : s.refresh.isNone = true := congrArg Verdict.idle hv
  exact ⟨by decide +kernel, s, hs, refresh_covers rfl rfl hs (by decide +kernel) hsent (isNone_iff_eq_none.1 hidle)⟩

/-- **Bug**: the token changes while the subscribe is under way, and the server then subscribes the client to a channel that its
claims do not permit. -/
theorem subscribe_outlives_refresh :
    verdict [subscribeOrders, leaveTraders, .swap, serveNext, .track] = some ⟨[], [], true, [(str "acme.orders", false)]⟩ := by
  decide +kernel

end Sukko.Gateway.RefreshScope
