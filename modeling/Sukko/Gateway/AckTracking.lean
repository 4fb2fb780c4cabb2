import Sukko.Gateway.Proxy
import Sukko.Lib.Decimal
import Sukko.Server.Messages
/-
# The gateway follows the acknowledgments of the server

An acknowledgment is a Go map (`server/handlers_message.go:154`, `:207`), its members in the order of their keys. The proxy
looks for `_ack` in the first 80 bytes (`gateway/proxy.go:438`).
-/

namespace Sukko.Gateway
open GoStr (formatNat formatNat_isDigit)
open Json Protocol Server Utf8 List

/-! ## The frames -/

inductive AckKind
  | subscription
  | unsubscription
deriving DecidableEq

structure Ack where
  kind : AckKind
  channels : List GoStr
  count : Nat
deriving DecidableEq

def stringsTree (channels : List GoStr) : Value := array (channels.map fun c => .str (quote c))

def Ack.tree (a : Ack) : Value :=
  match a.kind with
  | .subscription => objectOfMap
      [("type".toList, .str (quote respTypeSubscriptionAck)), ("subscribed".toList, stringsTree a.channels),
       ("count".toList, .num (.ofNat a.count))]
  | .unsubscription => objectOfMap
      [("type".toList, .str (quote respTypeUnsubscriptionAck)), ("unsubscribed".toList, stringsTree a.channels),
       ("count".toList, .num (.ofNat a.count))]

def Ack.frame (a : Ack) : GoStr := a.tree.text

def Ack.apply (s : SubscriptionSet) (a : Ack) : SubscriptionSet :=
  match a.kind with
  | .subscription => s.addMultiple a.channels
  | .unsubscription => s.removeMultiple a.channels

/-- The frame changes the tracked channels by exactly the listed ones. -/
def Ack.Exact (a : Ack) (p : Proxy) : Prop :=
  ∀ ch, ch ∈ (trackSubscriptionResponse p a.frame).subscribedChannels ↔
    match a.kind with
    | .subscription => ch ∈ p.subscribedChannels ∨ ch ∈ a.channels
    | .unsubscription => ch ∈ p.subscribedChannels ∧ ch ∉ a.channels

def Ack.seen (a : Ack) : Bool := decide (str "_ack" <:+: a.frame.take subscriptionAckPrefixScanLen)

/-- The channels as the frame lists them. -/
def Ack.listText (a : Ack) : GoStr := (stringsTree a.channels).text

/-- The count and the list in front of the type are short, or a name with `_ack` is near the start of the list. An unsubscription
has its list behind the type. -/
def Ack.Short (a : Ack) : Prop :=
  match a.kind with
  | .subscription => (formatNat a.count).length + a.listText.length ≤ 32 ∨
      str "_ack" <:+: a.listText.take (57 - (formatNat a.count).length)
  | .unsubscription => (formatNat a.count).length ≤ 44

/-- What the proxy can follow: the frame is short enough, and the names are UTF-8. -/
def Ack.Visible (a : Ack) : Prop := a.Short ∧ ∀ ch ∈ a.channels, Decoded ch

/-! ## What the proxy decodes -/

theorem Ack.tree_eq (a : Ack) : a.tree =
    match a.kind with
    | .subscription => object [("count".toList, .num (.ofNat a.count)), ("subscribed".toList, stringsTree a.channels),
        ("type".toList, .str (quote respTypeSubscriptionAck))]
    | .unsubscription => object [("count".toList, .num (.ofNat a.count)),
        ("type".toList, .str (quote respTypeUnsubscriptionAck)), ("unsubscribed".toList, stringsTree a.channels)] := by
  obtain ⟨kind, channels, count⟩ := a
  cases kind <;> rfl

theorem Ack.depth_tree (a : Ack) : a.tree.depth ≤ maxNestingDepth := by
  have hs : (stringsTree a.channels).depth ≤ 1 := depth_quoted a.channels
  have h2 : a.tree.depth ≤ 1 + 1 := by
    rw [a.tree_eq]
    split
    · refine depth_object fun m hm => ?_
      simp only [mem_cons, not_mem_nil, or_false] at hm
      rcases hm with rfl | rfl | rfl
      · exact Nat.zero_le 1
      · exact hs
      · exact Nat.zero_le 1
    · refine depth_object fun m hm => ?_
      simp only [mem_cons, not_mem_nil, or_false] at hm
      rcases hm with rfl | rfl | rfl
      · exact Nat.zero_le 1
      · exact Nat.zero_le 1
      · exact hs
  exact h2.trans (by decide)

section Fields
variable (v : Value) (m : AckMessage)

theorem setMember_count : setMember ackFields "count".toList v m = some m := rfl

theorem setMember_ackType :
    setMember ackFields "type".toList v m = (decodeString v m.type).map fun t => { m with type := t } := rfl

theorem setMember_subscribed :
    setMember ackFields "subscribed".toList v m = (decodeStrings v m.subscribed).map fun c => { m with subscribed := c } := rfl

theorem setMember_unsubscribed : setMember ackFields "unsubscribed".toList v m =
    (decodeStrings v m.unsubscribed).map fun c => { m with unsubscribed := c } := rfl

end Fields

theorem decoded_subscriptionAck : Decoded respTypeSubscriptionAck := ⟨"subscription_ack".toList, by decide⟩
theorem decoded_unsubscriptionAck : Decoded respTypeUnsubscriptionAck := ⟨"unsubscription_ack".toList, by decide⟩

theorem Ack.unmarshal_frame (a : Ack) {names : StrSlice} (h : decodeStrings (stringsTree a.channels) .nil = some names) :
    unmarshal ackFields ⟨[], .nil, .nil⟩ a.frame = some (match a.kind with
      | .subscription => ⟨respTypeSubscriptionAck, names, .nil⟩
      | .unsubscription => ⟨respTypeUnsubscriptionAck, .nil, names⟩) := by
  rw [Ack.frame, unmarshal_written a.depth_tree, a.tree_eq]
  obtain ⟨kind, channels, count⟩ := a
  cases kind with
  | subscription =>
    simp only [decodeObject_object, setMembers, setMember_count, setMember_subscribed, setMember_ackType, Option.bind_some, h,
      Option.map_some, decodeString_quote decoded_subscriptionAck]
  | unsubscription =>
    simp only [decodeObject_object, setMembers, setMember_count, setMember_unsubscribed, setMember_ackType, Option.bind_some, h,
      Option.map_some, decodeString_quote decoded_unsubscriptionAck]

theorem decodeStrings_stringsTree (channels : List GoStr) :
    decodeStrings (stringsTree channels) .nil = some ⟨channels.map sanitized, []⟩ :=
  decodeStrings_quoted channels

/-! ## Where `_ack` falls -/

theorem infix_append_cons_iff {α : Type} {p u v : List α} {sep : α} (h : sep ∉ p) :
    p <:+: u ++ sep :: v ↔ p <:+: u ∨ p <:+: v := by
  constructor
  · rintro ⟨s, t, hst⟩
    rcases append_eq_append_iff.1 hst with ⟨a, rfl, -⟩ | ⟨c, hc, hv⟩
    · exact .inl ⟨s, a, rfl⟩
    · cases c with
      | nil => exact .inl ⟨s, [], by simpa using hc⟩
      | cons b c =>
        -- the occurrence reaches beyond the separator, so it starts behind it
        obtain ⟨rfl, rfl⟩ := cons.inj hv
        rcases append_eq_append_iff.1 hc with ⟨a, -, rfl⟩ | ⟨a, -, ha⟩
        · exact absurd (mem_append_right a mem_cons_self) h
        · cases a with
          | nil =>
            rw [nil_append] at ha
            exact absurd (ha ▸ mem_cons_self) h
          | cons b a =>
            obtain ⟨-, rfl⟩ := cons.inj ha
            exact .inr ⟨a, t, rfl⟩
  · rintro (h | h)
    · exact h.trans ⟨[], sep :: v, by simp⟩
    · exact h.trans ⟨u ++ [sep], [], by simp⟩

theorem cons_infix_append_iff {α : Type} {b : α} {p u v : List α} (h : b ∉ u) : b :: p <:+: u ++ v ↔ b :: p <:+: v := by
  induction u with
  | nil => rfl
  | cons c u ih =>
    rw [mem_cons, not_or] at h
    rw [cons_append, infix_cons_iff, ih h.2, or_iff_right]
    rintro ⟨t, ht⟩
    exact h.1 (cons.inj ht).1

/-- `_ack` is in the first bytes of a text whose start has no underscore just if it is in what is left of them. -/
theorem ack_infix_take_iff {u v : GoStr} {n : Nat} (h : 95 ∉ u) :
    str "_ack" <:+: (u ++ v).take n ↔ str "_ack" <:+: v.take (n - u.length) := by
  have ht : 95 ∉ u.take n := fun hm => h (mem_of_mem_take hm)
  rw [take_append]
  exact cons_infix_append_iff ht

theorem underscore_not_mem_formatNat (n : Nat) : 95 ∉ formatNat n := by
  intro h
  have := formatNat_isDigit n _ h
  revert this
  decide

theorem entriesOf_text {k : Json.Kind} (e : Lead k × Value) (es : List (Lead k × Value)) :
    ∃ u, (entriesOf e es).text = u ++ [k.closeByte] := by
  induction es generalizing e with
  | nil => exact ⟨_, (append_assoc _ _ _).symm⟩
  | cons e' es ih =>
    obtain ⟨u, hu⟩ := ih e'
    refine ⟨e.1.text k ++ (e.2.text ++ comma :: u), ?_⟩
    have hb : Space.none.bytes = [] := rfl
    rw [entriesOf, Entries.text, hu]
    simp [hb]

theorem listText_eq (a : Ack) : ∃ u, a.listText = u ++ [93] := by
  unfold Ack.listText stringsTree
  cases a.channels with
  | nil => exact ⟨[91], rfl⟩
  | cons c cs =>
    obtain ⟨u, hu⟩ := entriesOf_text (k := .arr) (noLead, .str (quote c))
      ((cs.map fun c => Value.str (quote c)).map fun v => (noLead, v))
    exact ⟨91 :: u, by rw [map_cons, array, Value.text, hu]; rfl⟩

theorem ack_infix_type_iff (n : Nat) : str "_ack" <:+: (str ",\"type\":\"subscription_ack\"\x7d").take n ↔ 25 ≤ n := by
  by_cases hn : n < 27
  · have hall : ∀ n < 27, str "_ack" <:+: (str ",\"type\":\"subscription_ack\"\x7d").take n ↔ 25 ≤ n := by decide +kernel
    exact hall n hn
  · rw [take_of_length_le (Nat.le_of_lt_succ (Nat.lt_succ_of_le (Nat.le_trans (by decide) (Nat.not_lt.1 hn))))]
    exact iff_of_true (by decide +kernel) (by omega)

/-- The list ends with a bracket, so `_ack` is in it or in the type behind it. -/
theorem ack_infix_list_iff (a : Ack) (n : Nat) :
    str "_ack" <:+: (a.listText ++ str ",\"type\":\"subscription_ack\"\x7d").take n ↔
      str "_ack" <:+: a.listText.take n ∨ a.listText.length + 25 ≤ n := by
  obtain ⟨u, hu⟩ := listText_eq a
  have hsep : (93 : UInt8) ∉ str "_ack" := by decide
  rw [hu, append_assoc, singleton_append, length_append, length_singleton]
  rcases Nat.lt_or_ge u.length n with hn | hn
  · obtain ⟨m, rfl⟩ : ∃ m, n = u.length + (m + 1) := ⟨n - u.length - 1, by omega⟩
    rw [take_length_add_append, take_length_add_append, take_succ_cons, take_succ_cons, infix_append_cons_iff hsep,
      infix_append_cons_iff hsep, ack_infix_type_iff, take_nil, or_assoc]
    have hnil : ¬str "_ack" <:+: [] := by decide
    rw [or_iff_right hnil]
    exact or_congr_right (by omega)
  · rw [take_append_of_le_length hn, take_append_of_le_length hn]
    exact (or_iff_left (by omega)).symm

theorem Ack.seen_iff (a : Ack) : a.seen = true ↔ a.Short := by
  rw [Ack.seen, decide_eq_true_iff, Ack.frame, a.tree_eq, Ack.Short]
  have hdigits := underscore_not_mem_formatNat a.count
  cases a.kind with
  | subscription =>
    change _ <:+: ((str "\x7b\"count\":" ++ (formatNat a.count ++ (str ",\"subscribed\":" ++
      (a.listText ++ str ",\"type\":\"subscription_ack\"\x7d")))).take 80) ↔ _
    rw [ack_infix_take_iff (by decide), ack_infix_take_iff hdigits, ack_infix_take_iff (by decide), ack_infix_list_iff, or_comm]
    have hn : 80 - (str "\x7b\"count\":").length - (formatNat a.count).length - (str ",\"subscribed\":").length =
        57 - (formatNat a.count).length := by
      rw [show (str "\x7b\"count\":").length = 9 by decide, show (str ",\"subscribed\":").length = 14 by decide]
      omega
    rw [hn]
    exact or_congr_left (by omega)
  | unsubscription =>
    change _ <:+: ((str "\x7b\"count\":" ++ (formatNat a.count ++ (str ",\"type\":\"unsubscription" ++
      (str "_ack" ++ (str "\",\"unsubscribed\":" ++ (a.listText ++ str "\x7d")))))).take 80) ↔ _
    rw [ack_infix_take_iff (by decide), ack_infix_take_iff hdigits, ack_infix_take_iff (by decide)]
    have hn : 80 - (str "\x7b\"count\":").length - (formatNat a.count).length - (str ",\"type\":\"unsubscription").length =
        48 - (formatNat a.count).length := by
      rw [show (str "\x7b\"count\":").length = 9 by decide, show (str ",\"type\":\"unsubscription").length = 23 by decide]
      omega
    rw [hn]
    have hlen : (str "_ack").length = 4 := by decide
    constructor
    · intro h
      have := h.length_le
      rw [length_take, hlen] at this
      omega
    · intro h
      obtain ⟨m, hm⟩ : ∃ m, 48 - (formatNat a.count).length = (str "_ack").length + m :=
        ⟨44 - (formatNat a.count).length, by omega⟩
      rw [hm, take_length_add_append]
      exact ⟨[], _, rfl⟩

/-! ## Following one frame -/

theorem mem_foldl_insert {cs names : List GoStr} {ch : GoStr} :
    ch ∈ names.foldl (fun cs ch => cs.insert ch) cs ↔ ch ∈ cs ∨ ch ∈ names := by
  induction names generalizing cs with
  | nil => simp
  | cons n names ih =>
    rw [foldl_cons, ih, mem_insert_iff, mem_cons]
    tauto

variable {a : Ack} {s : SubscriptionSet} {p : Proxy}

theorem track_of_not_seen (h : a.seen = false) (p : Proxy) : trackSubscriptionResponse p a.frame = p := by
  rw [trackSubscriptionResponse, if_pos]
  simpa [Ack.seen] using h

theorem mem_track (h : a.seen = true) (p : Proxy) (ch : GoStr) :
    ch ∈ (trackSubscriptionResponse p a.frame).subscribedChannels ↔
      match a.kind with
      | .subscription => ch ∈ p.subscribedChannels ∨ ch ∈ a.channels.map sanitized
      | .unsubscription => ch ∈ p.subscribedChannels ∧ ch ∉ a.channels.map sanitized := by
  have hs : str "_ack" <:+: a.frame.take subscriptionAckPrefixScanLen := by simpa [Ack.seen] using h
  rw [trackSubscriptionResponse, if_neg (not_not.2 hs), a.unmarshal_frame (decodeStrings_stringsTree a.channels)]
  obtain ⟨kind, channels, count⟩ := a
  cases kind with
  | subscription =>
    have ht : respTypeSubscriptionAck = str "subscription_ack" := rfl
    simp only [if_pos ht, mem_foldl_insert]
  | unsubscription =>
    have ho : respTypeUnsubscriptionAck ≠ str "subscription_ack" := by decide
    have ht : respTypeUnsubscriptionAck = str "unsubscription_ack" := rfl
    simp only [if_neg ho, if_pos ht, mem_filter, decide_eq_true_eq]

theorem exact_of_visible (h : a.Visible) (p : Proxy) : a.Exact p := by
  intro ch
  rw [mem_track (a.seen_iff.2 h.1)]
  have hm : a.channels.map sanitized = a.channels := by
    refine (map_congr_left fun c hc => ?_).trans (map_id _)
    exact sanitized_of_decoded (h.2 c hc)
  rw [hm]

def trackingProxy (p : Proxy) (channels : List GoStr) : Proxy := { p with subscribedChannels := channels }

theorem exact_iff_visible (hne : a.channels ≠ []) (p : Proxy) :
    (∀ channels, a.Exact (trackingProxy p channels)) ↔ a.Visible := by
  refine ⟨fun h => ?_, fun h channels => exact_of_visible h _⟩
  have hs : a.seen = true := by
    by_contra hns
    obtain ⟨c, hc⟩ := exists_mem_of_ne_nil _ hne
    have hsm := track_of_not_seen (Bool.eq_false_iff.2 hns)
    cases hk : a.kind with
    | subscription =>
      have := h [] c
      rw [hsm, hk] at this
      simpa [trackingProxy] using this.2 (.inr hc)
    | unsubscription =>
      have := h [c] c
      rw [hsm, hk] at this
      exact (this.1 mem_cons_self).2 hc
  refine ⟨a.seen_iff.1 hs, fun c hc => ?_⟩
  -- whatever the proxy adds or removes is UTF-8
  have hm : c ∈ a.channels.map sanitized := by
    cases hk : a.kind with
    | subscription =>
      have hex := h [] c
      have htr := mem_track hs (trackingProxy p []) c
      rw [hk] at hex htr
      simpa [trackingProxy] using htr.1 (hex.2 (.inr hc))
    | unsubscription =>
      have hex := h [c] c
      have htr := mem_track hs (trackingProxy p [c]) c
      rw [hk] at hex htr
      by_contra hcn
      exact (hex.1 (htr.2 ⟨mem_cons_self, hcn⟩)).2 hc
  obtain ⟨s, -, rfl⟩ := mem_map.1 hm
  exact sanitized_decoded s

/-! ## Following a sequence -/

def Tracks (p : Proxy) (s : SubscriptionSet) : Prop := ∀ ch, ch ∈ p.subscribedChannels ↔ ch ∈ s.channels

theorem Tracks.ack (h : Tracks p s) {a : Ack} (ha : a.Visible) : Tracks (trackSubscriptionResponse p a.frame) (a.apply s) := by
  intro ch
  rw [exact_of_visible ha p ch]
  unfold Ack.apply
  cases a.kind with
  | subscription => rw [SubscriptionSet.mem_addMultiple, h ch]
  | unsubscription => rw [SubscriptionSet.mem_removeMultiple, h ch]

theorem Tracks.acks {acks : List Ack} (h : Tracks p s) (ha : ∀ a ∈ acks, a.Visible) :
    Tracks (acks.foldl (fun p a => trackSubscriptionResponse p a.frame) p) (acks.foldl (fun s a => a.apply s) s) := by
  induction acks generalizing p s with
  | nil => exact h
  | cons a acks ih =>
    rw [forall_mem_cons] at ha
    exact ih (h.ack ha.1) ha.2

/-- **The proxy follows exactly the visible acknowledgments**: those of an unsubscription, those whose count and list take no more
than 32 bytes, and those with a name with `_ack` near the start, all with names in UTF-8. -/
theorem ackTracking_exact (p : Proxy) :
    (∀ a : Ack, a.channels ≠ [] → ((∀ channels, a.Exact (trackingProxy p channels)) ↔ a.Visible)) ∧
    ∀ (acks : List Ack) (s : SubscriptionSet), (∀ a ∈ acks, a.Visible) → Tracks p s →
      Tracks (acks.foldl (fun p a => trackSubscriptionResponse p a.frame) p) (acks.foldl (fun s a => a.apply s) s) :=
  ⟨fun _ hne => exact_iff_visible hne p, fun _ _ hacks h => h.acks hacks⟩

def shortAcks : List Ack := [⟨.subscription, [str "acme.news"], 1⟩, ⟨.unsubscription, [str "acme.news"], 0⟩]

theorem shortAcks_visible : ∀ a ∈ shortAcks, a.Visible := by
  have hn : Decoded (str "acme.news") := ⟨"acme.news".toList, by decide⟩
  intro a ha
  simp only [shortAcks, mem_cons, not_mem_nil, or_false] at ha
  rcases ha with rfl | rfl <;> exact ⟨(Ack.seen_iff _).1 (by decide +kernel), by simpa using hn⟩

theorem ackTracking_exact_shortAcks : (⟨.subscription, [str "acme.news"], 1⟩ : Ack).Exact demoProxy ∧
    Tracks (shortAcks.foldl (fun p a => trackSubscriptionResponse p a.frame) demoProxy)
      (shortAcks.foldl (fun s a => a.apply s) .empty) :=
  ⟨((ackTracking_exact demoProxy).1 _ (by decide)).2 (shortAcks_visible _ mem_cons_self) [],
    (ackTracking_exact demoProxy).2 _ _ shortAcks_visible fun ch => by simp [demoProxy, SubscriptionSet.empty]⟩

def longSubscribe : GoStr :=
  str "\x7b\"type\":\"subscribe\",\"data\":\x7b\"channels\":[\"acme.orders.europe\",\"acme.orders.asia\"]\x7d\x7d"

/-- **Bug**: `_ack` is behind byte 80 of the frame, and the proxy does not notice the acknowledgment. -/
theorem long_ack_missed :
    (handleClientMessage ⟨some .direct, 10, 100, false⟩ ⟨⟨[], false, [], 0⟩, true, .ok []⟩ ⟨0, str "acme", .empty, .empty⟩
        longSubscribe).2 =
      [.subscribe [str "acme.orders.europe", str "acme.orders.asia"],
        .ack respTypeSubscriptionAck [str "acme.orders.europe", str "acme.orders.asia"] 2] ∧
    trackSubscriptionResponse demoProxy
        (⟨.subscription, [str "acme.orders.europe", str "acme.orders.asia"], 2⟩ : Ack).frame = demoProxy :=
  ⟨by decide +kernel, track_of_not_seen (by decide +kernel) _⟩

end Sukko.Gateway
