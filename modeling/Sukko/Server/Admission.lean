import Sukko.Server.Messages
/-
# Admission of a subscribe request
-/

namespace Sukko.Server
open Protocol

def requested (d : SubscribeData) : List GoStr :=
  match d.history with
  | none => d.channels.items
  | some _ => [d.channel]

def admits (cfg : Config) (c : Session) (d : SubscribeData) : Bool :=
  (d.history = none || (d.channel ≠ [] && cfg.history)) && requested d ≠ [] &&
    (c.subscriptions.count + ((requested d).filter fun ch => !c.subscriptions.has ch).length : Int) ≤
      cfg.maxChannelsPerClient

def distinct (s : SubscriptionSet) (channels : List GoStr) : Nat := (s.channels.toFinset ∪ channels.toFinset).card

def subscribeDecoded (cfg : Config) (c : Session) (d : SubscribeData) : Session × List Effect :=
  match requestedChannels cfg d with
  | .error e => (c, [e])
  | .ok channels =>
    if channels = [] then (c, [sendError respTypeSubscribeError .invalidRequest "no channels specified"])
    else
      let newChannels := (channels.filter fun ch => !c.subscriptions.has ch).length
      if cfg.maxChannelsPerClient < c.subscriptions.count + newChannels then
        (c, [sendError respTypeSubscribeError .subscribeLimitExceeded "channel subscription limit reached"])
      else
        let c := c.register channels
        let request := d.history.toList.map fun limit => Effect.historyRequest d.channel limit
        (c, [.subscribe channels, .ack respTypeSubscriptionAck channels c.subscriptions.count] ++ request)

def Effect.refuses : Effect → Bool
  | .error _ _ _ | .historyError _ _ _ => true
  | _ => false

section
variable {cfg : Config} {c : Session} {data : GoStr} {d : SubscribeData}

theorem handleSubscribe_decoded (hd : unmarshalSubscribe data = some d) :
    handleSubscribe cfg c data = subscribeDecoded cfg c d := by
  simp only [handleSubscribe, hd]
  rfl

theorem requestedChannels_eq (cfg : Config) (d : SubscribeData) :
    (requestedChannels cfg d = .ok (requested d) ∧ (d.history = none || (d.channel ≠ [] && cfg.history)) = true) ∨
      ((∃ e, requestedChannels cfg d = .error e ∧ e.refuses = true) ∧
        (d.history = none || (d.channel ≠ [] && cfg.history)) = false) := by
  unfold requestedChannels requested
  cases d.history with
  | none => exact .inl ⟨rfl, rfl⟩
  | some limit =>
    by_cases hch : d.channel = []
    · exact .inr ⟨⟨_, by rw [if_pos hch], rfl⟩, by simp [hch]⟩
    · rw [if_neg hch]
      cases cfg.history with
      | true => exact .inl ⟨rfl, by simp [hch]⟩
      | false => exact .inr ⟨⟨_, rfl, rfl⟩, by simp⟩

theorem subscribeDecoded_of_admits (h : admits cfg c d = true) :
    subscribeDecoded cfg c d = (c.register (requested d), [.subscribe (requested d),
      .ack respTypeSubscriptionAck (requested d) (c.register (requested d)).subscriptions.count] ++
        d.history.toList.map fun limit => Effect.historyRequest d.channel limit) := by
  simp only [admits, Bool.and_eq_true, decide_eq_true_eq] at h
  obtain ⟨⟨hf, hne⟩, hft⟩ := h
  rcases requestedChannels_eq cfg d with ⟨hr, -⟩ | ⟨-, hn⟩
  · rw [subscribeDecoded, hr]
    dsimp only
    rw [if_neg hne, if_neg (not_lt.2 hft)]
  · simp only [Bool.or_eq_true, decide_eq_true_eq, Bool.and_eq_true, Bool.or_eq_false_iff, decide_eq_false_iff_not] at hf hn
    simp_all

theorem subscribeDecoded_of_not_admits (h : admits cfg c d = false) :
    ∃ e, subscribeDecoded cfg c d = (c, [e]) ∧ e.refuses = true := by
  rw [subscribeDecoded]
  rcases requestedChannels_eq cfg d with ⟨hr, hf⟩ | ⟨⟨e, hr, he⟩, -⟩
  · rw [hr]
    dsimp only
    by_cases hn : requested d = []
    · rw [if_pos hn]
      exact ⟨_, rfl, rfl⟩
    · rw [if_neg hn]
      rw [admits, hf, decide_eq_true hn, Bool.true_and, Bool.true_and, decide_eq_false_iff_not] at h
      rw [if_pos (not_le.1 h)]
      exact ⟨_, rfl, rfl⟩
  · rw [hr]
    exact ⟨e, rfl, he⟩

/-- The new channels of the list, repetitions included. -/
def newChannels (s : SubscriptionSet) (channels : List GoStr) : List GoStr := channels.filter fun ch => !s.has ch

/-- How often the list names a new channel again. -/
def repetitions (s : SubscriptionSet) (channels : List GoStr) : Nat :=
  (newChannels s channels).length - (newChannels s channels).dedup.length

theorem distinct_eq (s : SubscriptionSet) (channels : List GoStr) :
    distinct s channels = s.count + (newChannels s channels).dedup.length := by
  have hs : s.channels.toFinset ∪ channels.toFinset = s.channels.toFinset ∪ (newChannels s channels).toFinset := by
    ext ch
    by_cases hch : ch ∈ s.channels <;> simp [newChannels, SubscriptionSet.has, hch]
  have hd : Disjoint s.channels.toFinset (newChannels s channels).toFinset := by
    rw [Finset.disjoint_left]
    intro ch hch
    simp_all [newChannels, SubscriptionSet.has]
  rw [distinct, hs, Finset.card_union_of_disjoint hd, List.toFinset_card_of_nodup s.nodup, List.card_toFinset]
  rfl

/-- The limit counts the distinct channels and, besides, the repetitions. -/
theorem count_eq (s : SubscriptionSet) (channels : List GoStr) :
    s.count + (newChannels s channels).length = distinct s channels + repetitions s channels := by
  have := (List.dedup_sublist (newChannels s channels)).length_le
  rw [distinct_eq, repetitions]
  omega

theorem admits_iff : admits cfg c d = true ↔ requested d ≠ [] ∧ (d.history = none ∨ d.channel ≠ [] ∧ cfg.history = true) ∧
    (repetitions c.subscriptions (requested d) : Int) ≤ cfg.maxChannelsPerClient - distinct c.subscriptions (requested d) := by
  have hc : (c.subscriptions.count + ((requested d).filter fun ch => !c.subscriptions.has ch).length : Int) =
      distinct c.subscriptions (requested d) + repetitions c.subscriptions (requested d) := by
    exact_mod_cast count_eq c.subscriptions (requested d)
  rw [admits, hc]
  simp only [Bool.and_eq_true, Bool.or_eq_true, decide_eq_true_eq]
  rw [and_assoc, and_left_comm]
  refine and_congr_right fun _ => and_congr_right fun _ => ?_
  omega

theorem fits_of_admits (h : admits cfg c d = true) :
    (distinct c.subscriptions (requested d) : Int) ≤ cfg.maxChannelsPerClient := by
  have := (admits_iff.1 h).2.2
  omega

end

/-- The outcome of a request is that of the set of its channels. -/
structure ExactAdmission (cfg : Config) (c : Session) (channels : List GoStr) (r : Session × List Effect) : Prop where
  accepted : .subscribe channels ∈ r.2 ↔ (distinct c.subscriptions channels : Int) ≤ cfg.maxChannelsPerClient
  set : .subscribe channels ∈ r.2 → ∀ ch, ch ∈ r.1.subscriptions.channels ↔ ch ∈ c.subscriptions.channels ∨ ch ∈ channels
  index : .subscribe channels ∈ r.2 → ∀ ch ref, ref ∈ r.1.index.get ch ↔ ref ∈ c.index.get ch ∨ ref = c.ref ∧ ch ∈ channels
  unchanged : .subscribe channels ∉ r.2 → r.1 = c

/-- **Admission is exact** just if the request does not fit, or is not empty, asks for no history that is refused, and repeats its
new channels no more often than there is room left. -/
theorem exactAdmission_iff (cfg : Config) (c : Session) (data : GoStr) (d : SubscribeData)
    (hd : unmarshalSubscribe data = some d) :
    ExactAdmission cfg c (requested d) (handleSubscribe cfg c data) ↔
      (cfg.maxChannelsPerClient < distinct c.subscriptions (requested d) ∨
        requested d ≠ [] ∧ (d.history = none ∨ d.channel ≠ [] ∧ cfg.history = true) ∧
          (repetitions c.subscriptions (requested d) : Int) ≤
            cfg.maxChannelsPerClient - distinct c.subscriptions (requested d)) := by
  rw [handleSubscribe_decoded hd, ← admits_iff, ← not_le, ← imp_iff_not_or]
  cases hadm : admits cfg c d with
  | true =>
    rw [subscribeDecoded_of_admits hadm]
    have hmem : Effect.subscribe (requested d) ∈ [Effect.subscribe (requested d),
        .ack respTypeSubscriptionAck (requested d) (c.register (requested d)).subscriptions.count] ++
          d.history.toList.map fun limit => Effect.historyRequest d.channel limit := List.mem_cons_self
    refine ⟨fun _ _ => rfl, fun _ => ⟨iff_of_true hmem (fits_of_admits hadm), fun _ ch => ?_, fun _ ch ref => ?_,
      fun hnot => absurd hmem hnot⟩⟩
    · exact SubscriptionSet.mem_addMultiple
    · exact SubscriptionIndex.mem_addMultiple
  | false =>
    obtain ⟨e, heq, he⟩ := subscribeDecoded_of_not_admits hadm
    rw [heq]
    have hnot : Effect.subscribe (requested d) ∉ [e] := by
      rw [List.mem_singleton]
      rintro rfl
      cases he
    refine ⟨fun hexact hfits => absurd (hexact.accepted.2 hfits) hnot, fun hguard => ?_⟩
    refine ⟨iff_of_false hnot fun hfits => ?_, fun hmem => absurd hmem hnot, fun hmem => absurd hmem hnot, fun _ => rfl⟩
    cases hguard hfits

def smallServer : Config := ⟨none, 2, 100, false⟩
def holder : Session := (⟨0, str "acme", .empty, .empty⟩ : Session).register [str "acme.a"]

theorem exactAdmission_iff_smallServer : ExactAdmission smallServer holder [str "acme.a", str "acme.b"]
      (handleSubscribe smallServer holder (str "\x7b\"channels\":[\"acme.a\",\"acme.b\"]\x7d")) :=
  (exactAdmission_iff smallServer holder (str "\x7b\"channels\":[\"acme.a\",\"acme.b\"]\x7d")
    ⟨⟨[str "acme.a", str "acme.b"], []⟩, [], none⟩ (by decide +kernel)).2 (.inr ⟨by decide, .inl rfl, by decide +kernel⟩)

/-- **Bug**: a new channel that is listed twice counts twice, and a request that fits is turned away. -/
theorem repeated_channel_refused : distinct holder.subscriptions [str "acme.b", str "acme.b"] = 2 ∧
      (handleSubscribe smallServer holder (str "\x7b\"channels\":[\"acme.b\",\"acme.b\"]\x7d")).2 =
        [sendError respTypeSubscribeError .subscribeLimitExceeded "channel subscription limit reached"] := by
  decide +kernel

end Sukko.Server
