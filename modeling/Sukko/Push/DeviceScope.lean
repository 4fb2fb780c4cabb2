import Sukko.Push.Subscriptions
import Sukko.Shared.Wildcards
/-
# What a device can receive

The gateway authorizes the channels of a device as names, without the tenant's prefix; the push service uses them as patterns,
with it. A name with a star is authorized once and then stands for all channels it frames.
-/

namespace Sukko.Push
open Gateway Channels GoStr Frames List

def grants (gw : Env) (authRes : AuthResult) : List GoStr :=
  match gw.provider with
  | some p => subscribePatterns (getRulesForTenant p authRes.tenantSlug) authRes.claims
  | none => []

def scope (authRes : AuthResult) : GoStr := authRes.tenantSlug ++ [dot]

def MayRead (gw : Env) (authRes : AuthResult) (channel : GoStr) : Prop :=
  filterSubscribeChannels gw.provider [channel] authRes.tenantSlug authRes.claims = [channel]

instance (gw : Env) (authRes : AuthResult) (channel : GoStr) : Decidable (MayRead gw authRes channel) :=
  inferInstanceAs (Decidable (_ = _))

/-- Whatever message `handleMessage` sends to the device, its channel is one the owner may read. -/
def ReadsOnlyAllowed (gw : Env) (authRes : AuthResult) (sub : PushSubscription) : Prop :=
  ∀ id patterns rows key, (⟨{ sub with id }, authRes⟩ : Row) ∈ recipients patterns rows authRes.tenantSlug key →
    MayRead gw authRes key

variable {gw : Env} {authRes : AuthResult} {sub : PushSubscription}

/-! ## What the filter allows -/

variable {channel pre suf : GoStr}

theorem mayRead_iff_subscribeAllowed :
    MayRead gw authRes channel ↔ subscribeAllowed gw.provider authRes.tenantSlug authRes.claims channel = true := by
  unfold MayRead
  rw [filterSubscribeChannels_eq]
  cases h : subscribeAllowed gw.provider authRes.tenantSlug authRes.claims channel <;> simp [h]

theorem wellFormed_iff {tenantID : GoStr} :
    wellFormed tenantID channel = true ↔ tenantID ≠ [] ∧ tenantID ++ [dot] <+: channel := by
  unfold wellFormed validateChannelTenant partCount minInternalChannelParts
  simp only [Bool.and_eq_true, decide_eq_true_iff, hasPrefix_iff]
  constructor
  · rintro ⟨⟨⟨-, ht⟩, hp⟩, -⟩
    exact ⟨ht, hp⟩
  · rintro ⟨ht, w, rfl⟩
    refine ⟨⟨⟨by simp, ht⟩, prefix_append _ w⟩, ?_⟩
    simp only [count_append, count_singleton_self]
    omega

theorem trimPrefix_append (p s : GoStr) : trimPrefix (p ++ s) p = s := by
  have h : hasPrefix (p ++ s) p = true := hasPrefix_iff.2 (prefix_append p s)
  unfold trimPrefix
  rw [if_pos h, drop_left]

/-- **What the filter allows**: the tenant's prefix and something that a rule matches. -/
theorem mayRead_iff : MayRead gw authRes channel ↔
      authRes.tenantSlug ≠ [] ∧ ∃ v, channel = scope authRes ++ v ∧ ∃ p ∈ grants gw authRes, matchWildcard p v = true := by
  rw [mayRead_iff_subscribeAllowed]
  unfold subscribeAllowed grants scope
  rw [Bool.and_eq_true, wellFormed_iff]
  cases gw.provider with
  | none => simp
  | some p =>
    simp only [Option.any_some, canSubscribe, matchAnyWildcard, any_eq_true]
    constructor
    · rintro ⟨⟨ht, w, rfl⟩, hm⟩
      rw [trimPrefix_append] at hm
      exact ⟨ht, w, rfl, hm⟩
    · rintro ⟨ht, v, rfl, hm⟩
      rw [trimPrefix_append]
      exact ⟨⟨ht, prefix_append _ v⟩, hm⟩

/-! ## Frames -/

def invalidByte : UInt8 := 0xFF

def Within (gw : Env) (authRes : AuthResult) (pre suf : GoStr) : Prop :=
  ∃ p ∈ grants gw authRes, ∃ r s, pieces p = some (r, s) ∧ scope authRes ++ r <+: pre ∧ s <:+ suf

theorem mayRead_of_within (ht : authRes.tenantSlug ≠ []) (h : Within gw authRes pre suf) (z : GoStr) :
    MayRead gw authRes (pre ++ z ++ suf) := by
  obtain ⟨p, hp, r, s, hpc, ⟨w, rfl⟩, hs⟩ := h
  refine mayRead_iff.2 ⟨ht, r ++ w ++ z ++ suf, by simp, p, hp, ?_⟩
  rw [matchWildcard_pieces hpc]
  have hf : Framed (r ++ w) suf (r ++ w ++ z ++ suf) := framed_append (r ++ w) z suf
  exact hf.mono (prefix_append r w) hs

theorem within_of_mayRead (hsl : invalidByte ∉ authRes.tenantSlug) (hg : ∀ p ∈ grants gw authRes, invalidByte ∉ p)
    (h : MayRead gw authRes (pre ++ [invalidByte] ++ suf)) : Within gw authRes pre suf := by
  obtain ⟨-, v, hv, p, hp, hm⟩ := mayRead_iff.1 h
  have hs : invalidByte ∉ scope authRes := by
    intro hmm
    rcases mem_append.1 hmm with hmm | hmm
    · exact hsl hmm
    · exact absurd (mem_singleton.1 hmm) (by decide)
  have hpr : scope authRes <+: pre := by
    refine prefix_of_fresh hs (y := suf) ⟨v, ?_⟩
    rw [← hv]
    simp
  obtain ⟨x, rfl⟩ := hpr
  obtain rfl : v = x ++ [invalidByte] ++ suf := by
    rw [append_assoc, append_assoc] at hv
    rw [← append_cancel_left hv]
    simp
  cases hpc : pieces p with
  | none =>
    rw [matchWildcard_literal hpc] at hm
    exact absurd (hm ▸ by simp) (hg p hp)
  | some rs =>
    obtain ⟨r, s⟩ := rs
    have hf := hg p hp
    rw [eq_of_pieces hpc, mem_append, mem_cons, not_or, not_or] at hf
    rw [matchWildcard_pieces hpc, framed_fresh_iff hf.1 hf.2.2] at hm
    exact ⟨p, hp, r, s, hpc, prefix_append_right_inj (scope authRes) |>.2 hm.1, hm.2⟩

/-- **A frame is allowed as a whole exactly if it lies within a rule.** -/
theorem frame_allowed_iff (ht : authRes.tenantSlug ≠ []) (hs : invalidByte ∉ authRes.tenantSlug)
    (hg : ∀ p ∈ grants gw authRes, invalidByte ∉ p) :
    (∀ z, MayRead gw authRes (pre ++ z ++ suf)) ↔ Within gw authRes pre suf :=
  ⟨fun h => within_of_mayRead hs hg (h [invalidByte]), fun h => mayRead_of_within ht h⟩

/-! ## Devices -/

/-- A stored name stands for no more than the rules allow: with a star, if its literal parts lie within those of a rule and the
record keys in which they overlap are allowed. -/
def Contained (gw : Env) (authRes : AuthResult) (channel : GoStr) : Prop :=
  ∀ pre suf, pieces channel = some (pre, suf) →
    Within gw authRes pre suf ∧ ∀ key ∈ overlaps pre suf, MayRead gw authRes key

theorem contained_iff (hr : MayRead gw authRes channel) (hs : invalidByte ∉ authRes.tenantSlug)
    (hg : ∀ p ∈ grants gw authRes, invalidByte ∉ p) :
    (∀ key, matchWildcard channel key = true → MayRead gw authRes key) ↔ Contained gw authRes channel := by
  obtain ⟨ht, -⟩ := mayRead_iff.1 hr
  unfold Contained
  cases hp : pieces channel with
  | none =>
    refine iff_of_true (fun key hk => ?_) (fun pre suf h => by cases h)
    rw [matchWildcard_literal hp] at hk
    exact hk ▸ hr
  | some ps =>
    obtain ⟨pre, suf⟩ := ps
    simp only [matchWildcard_pieces hp, forall_framed_iff, frame_allowed_iff ht hs hg]
    constructor
    · rintro h pre' suf' heq
      cases heq
      exact h
    · intro h
      exact h pre suf rfl

theorem readsOnlyAllowed_iff (ht : sub.tenantID = authRes.tenantSlug) :
    ReadsOnlyAllowed gw authRes sub ↔ ∀ ch ∈ sub.channels, ∀ key, matchWildcard ch key = true → MayRead gw authRes key := by
  constructor
  · intro h ch hch key hk
    refine h 0 [[star]] [⟨{ sub with id := 0 }, authRes⟩] key ?_
    have ha : matchChannel key [[star]] = true := by simp [matchChannel, matchAnyWildcard, matchWildcard]
    have hm : matchChannel key sub.channels = true := any_eq_true.2 ⟨ch, hch, hk⟩
    simp [recipients, ha, findByTenant, ht, hm]
  · intro h id patterns rows key hmm
    unfold recipients at hmm
    split at hmm
    · obtain ⟨ch, hch, hk⟩ := any_eq_true.1 (mem_filter.1 hmm).2
      exact h ch hch key hk
    · cases hmm

/-- **When a device receives only what its owner may read**: iff every stored name is contained in the rules. -/
theorem device_reads_allowed_iff (q : PushRequest) (authRes : AuthResult) (sub : PushSubscription)
    (h : handlePushSubscribe q = .ok (authRes, sub)) (hslug : invalidByte ∉ authRes.tenantSlug)
    (hgrants : ∀ p ∈ grants q.gw authRes, invalidByte ∉ p) :
    ReadsOnlyAllowed q.gw authRes sub ↔ ∀ ch ∈ sub.channels, Contained q.gw authRes ch := by
  obtain ⟨-, hacc⟩ := handlePushSubscribe_ok h
  rw [readsOnlyAllowed_iff hacc.tenantID]
  refine forall₂_congr fun ch hch => ?_
  exact contained_iff (mayRead_iff_subscribeAllowed.2 (hacc.channels ch hch)) hslug hgrants

theorem map_eq_ok {α β ε : Type} {r : Except ε α} {f : α → β} {b : β} : r.map f = .ok b ↔ ∃ a, r = .ok a ∧ f a = b := by
  cases r <;> simp [Except.map]

theorem device_reads_allowed_iff_news :
    ∃ authRes sub, handlePushSubscribe (demoRequest [str "news.*"] (str "old") (str "acme.news.*")) = .ok (authRes, sub) ∧
      ReadsOnlyAllowed (demoGateway [str "news.*"]) authRes sub := by
  obtain ⟨⟨authRes, sub⟩, hok, hval⟩ := map_eq_ok.1 (by decide +kernel :
    (handlePushSubscribe (demoRequest [str "news.*"] (str "old") (str "acme.news.*"))).map
      (fun p => (p.1.tenantSlug, p.2.channels, grants (demoGateway [str "news.*"]) p.1)) =
      .ok (str "acme", [str "acme.news.*"], [str "news.*"]))
  simp only [Prod.mk.injEq] at hval
  obtain ⟨htenant, hchannels, hgrants⟩ := hval
  refine ⟨authRes, sub, hok, (device_reads_allowed_iff _ authRes sub hok ?_ ?_).2 ?_⟩
  · rw [htenant]
    decide
  · intro p hp
    have hp' : p ∈ [str "news.*"] := hgrants ▸ hp
    rw [mem_singleton.1 hp']
    decide
  · intro ch hch pre suf hpieces
    rw [hchannels, mem_singleton] at hch
    subst hch
    have hparts : pieces (str "acme.news.*") = some (str "acme.news.", []) := by decide
    rw [hparts] at hpieces
    cases hpieces
    refine ⟨⟨str "news.*", ?_, str "news.", [], by decide, ?_, suffix_refl []⟩, by simp [overlaps]⟩
    · change str "news.*" ∈ grants (demoGateway [str "news.*"]) authRes
      rw [hgrants]
      exact mem_singleton_self _
    · unfold scope
      rw [htenant]
      decide

def Leaks (patterns : List GoStr) (channel key : GoStr) : Bool :=
  match handlePushSubscribe (demoRequest patterns (str "old") channel) with
  | .error _ => false
  | .ok (authRes, sub) =>
    (recipients [[star]] [⟨sub, authRes⟩] (str "acme") key).contains ⟨sub, authRes⟩ &&
      !decide (MayRead (demoGateway patterns) authRes key)

/-- **Bug**: with the rule `*.trade`, the channel `acme.*.trade` is sent messages of `acme.trade`, whose parts share a dot; with
the rule `*.trade.*`, whose second star is a literal, `acme.BTC.trade.*` is sent everything below it. -/
theorem device_reads_too_much : Leaks [str "*.trade"] (str "acme.*.trade") (str "acme.trade") = true ∧
      Leaks [str "*.trade.*"] (str "acme.BTC.trade.*") (str "acme.BTC.trade.eu") = true := by
  constructor <;> decide +kernel

end Sukko.Push
