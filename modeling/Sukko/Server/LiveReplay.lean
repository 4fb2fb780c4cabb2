import Sukko.Server.Recovery
/-
# Closing a gap of a live subscription

`truncated` is set when the goroutine's own deadline passes. A replay that reached `MaxReplayMessages` is taken for a whole
one, and the records of a topic that the registry does not have under the tenant are not looked at.
-/

namespace Sukko.Server
open Json Protocol List
open Kafka (TopicPartition Record Delivers ReplayMessage partitionPart expectedPart)

structure LiveReplayRequest where
  channel : GoStr
  fromPos : GoStr
deriving DecidableEq

def liveReplayFields : List (StructField LiveReplayRequest) :=
  [⟨"channel".toList, fun v d => (decodeString v d.channel).map fun s => { d with channel := s }⟩,
   ⟨"from_pos".toList, fun v d => (decodeString v d.fromPos).map fun s => { d with fromPos := s }⟩]

structure LiveReplays where
  replayInProgress : List GoStr
  replayLastAt : GoStr → Option Time

structure LiveInput where
  now : Time
  replayRateLimitInterval : Time
  backend : RecoveryInput
  takes : Nat → Bool

inductive LiveReply
  | error (channel code message : GoStr)
  | complete (channel : GoStr) (messagesReplayed : Nat) (truncated : Bool)
deriving DecidableEq

structure LiveOutcome where
  sent : List ReplayMessage
  reply : LiveReply
deriving DecidableEq

def refuse (channel code : GoStr) (message : String) : LiveOutcome := ⟨[], .error channel code (str message)⟩
def validData (data : GoStr) : Bool := (parse data).isSome

def stream (takes : Nat → Bool) (sent : List ReplayMessage) : List ReplayMessage → List ReplayMessage × Bool
  | [] => (sent, false)
  | m :: ms =>
    if !validData m.data then stream takes sent ms
    else if takes sent.length then stream takes (sent ++ [m]) ms
    else (sent, true)

def liveCursor (channel : GoStr) (tp : TopicPartition) (offset : Int) : Cursor := ⟨[(tp, offset)], [channel], 0⟩

def Backend.outOfRange (b : Backend) (inp : RecoveryInput) (maxMessages : Nat) (cursor : Cursor) : Bool :=
  match b with
  | .direct => false
  | .kafka _ pool _ => pool && inp.consumer &&
      (Kafka.replayFromOffsets inp.tenantResolver maxMessages cursor.authorized (inp.request cursor)).2 =
        some .offsetOutOfRange

/-- Part of `handleReplayRequest` (`server/handler_replay.go:21`). -/
def liveReplay (cfg : Config) (b : Backend) (inp : LiveInput) (channel : GoStr) (tp : TopicPartition) (offset : Int) :
    LiveOutcome :=
  match b.replay inp.backend cfg.maxReplayMessages (liveCursor channel tp offset) with
  | none =>
    if b.outOfRange inp.backend cfg.maxReplayMessages (liveCursor channel tp offset) then
      refuse channel (str "offset_out_of_range") "position is outside available history"
    else refuse channel ErrorCode.replayFailed.text "replay failed"
  | some [] => ⟨[], .complete channel 0 false⟩
  | some messages =>
    let (sent, truncated) := stream inp.takes [] messages
    ⟨sent, .complete channel sent.length truncated⟩

/-- See `server/handler_replay.go:21`. -/
def handleReplayRequest (cfg : Config) (c : Session) (l : LiveReplays) (inp : LiveInput) (data : GoStr) : LiveOutcome :=
  match unmarshal liveReplayFields ⟨[], []⟩ data with
  | none => refuse [] ErrorCode.invalidRequest.text "invalid replay request"
  | some req =>
    if !c.subscriptions.has req.channel then
      refuse req.channel (str "not_subscribed") "subscribe before replaying"
    else
      match decodePos req.fromPos with
      | none => refuse req.channel ErrorCode.invalidRequest.text "invalid from_pos format; expected (partition+1)-offset"
      | some (partition, offset) =>
        if req.channel ∈ l.replayInProgress then
          refuse req.channel (str "replay_in_progress") "replay already in progress for this channel"
        else if (l.replayLastAt req.channel).any fun last => inp.now - last < inp.replayRateLimitInterval then
          refuse req.channel (str "replay_rate_limited") "replay rate limit exceeded; please wait before retrying"
        else
          match cfg.backend with
          | none => refuse req.channel ErrorCode.notAvailable.text "replay not available (no backend configured)"
          | some b =>
            match b.channelTopic req.channel with
            | none => refuse req.channel ErrorCode.notAvailable.text "channel not available for replay"
            | some topic => liveReplay cfg b inp req.channel (topic, partition) offset

/-! ## What is streamed -/

theorem stream_complete {takes : Nat → Bool} {sent ms : List ReplayMessage} (h : (stream takes sent ms).2 = false) :
    (stream takes sent ms).1 = sent ++ ms.filter fun m => validData m.data := by
  induction ms generalizing sent with
  | nil => simp [stream]
  | cons m ms ih =>
    rw [stream] at h ⊢
    by_cases hv : validData m.data = true
    · simp only [hv, Bool.not_true, Bool.false_eq_true, if_false] at h ⊢
      split at h
      · rename_i ht
        rw [if_pos ht, ih h, filter_cons_of_pos (by simpa using hv), append_assoc, singleton_append]
      · cases h
    · simp only [Bool.not_eq_true] at hv
      simp only [hv, Bool.not_false, if_true] at h ⊢
      rw [ih h, filter_cons_of_neg (by simp [hv])]

section
variable {cfg : Config} {b : Backend} {inp : LiveInput} {channel : GoStr} {tp : TopicPartition} {offset : Int} {n : Nat}

theorem liveReplay_complete (h : (liveReplay cfg b inp channel tp offset).reply = .complete channel n false) :
    ∃ messages, b.replay inp.backend cfg.maxReplayMessages (liveCursor channel tp offset) = some messages ∧
      (liveReplay cfg b inp channel tp offset).sent = messages.filter fun m => validData m.data := by
  unfold liveReplay at h ⊢
  cases hr : b.replay inp.backend cfg.maxReplayMessages (liveCursor channel tp offset) with
  | none =>
    simp only [hr] at h
    split at h <;> cases h
  | some messages =>
    refine ⟨messages, rfl, ?_⟩
    cases messages with
    | nil => rfl
    | cons m ms =>
      simp only [hr, LiveReply.complete.injEq] at h
      exact (stream_complete h.2.2).trans (nil_append _)

theorem not_refused {p : Prop} [Decidable p] {ch code : GoStr} {message : String} {o : LiveOutcome} {truncated : Bool}
    (h : (if p then refuse ch code message else o).reply = .complete channel n truncated) :
    ¬p ∧ o.reply = .complete channel n truncated := by
  by_cases hp : p
  · rw [if_pos hp] at h
    cases h
  · rw [if_neg hp] at h
    exact ⟨hp, h⟩

theorem handleReplayRequest_complete {c : Session} {l : LiveReplays} {data : GoStr} {req : LiveReplayRequest}
    {partition : Int} {topic : GoStr} (hrq : unmarshal liveReplayFields ⟨[], []⟩ data = some req)
    (hps : decodePos req.fromPos = some (partition, offset)) (hb : cfg.backend = some b)
    (ht : b.channelTopic req.channel = some topic)
    (h : (handleReplayRequest cfg c l inp data).reply = .complete channel n false) :
    handleReplayRequest cfg c l inp data = liveReplay cfg b inp req.channel (topic, partition) offset := by
  simp only [handleReplayRequest, hrq, hps, hb, ht] at h ⊢
  obtain ⟨hs, h⟩ := not_refused h
  obtain ⟨hp, h⟩ := not_refused h
  obtain ⟨hr, -⟩ := not_refused h
  rw [if_neg hs, if_neg hp, if_neg hr]

end

/-! ## What the backend returns -/

theorem filter_take_of_sorted {ms : List ReplayMessage} (h : ms.Pairwise fun a b => a.offset < b.offset) (e : Int) (k : Nat) :
    (ms.take k).filter (·.offset < e) = (ms.filter (·.offset < e)).take k := by
  induction ms generalizing k with
  | nil => simp
  | cons m ms ih =>
    cases k with
    | zero => simp
    | succ k =>
      obtain ⟨hlt, hr⟩ := pairwise_cons.1 h
      by_cases hm : m.offset < e
      · rw [take_succ_cons, filter_cons_of_pos (by simpa using hm), filter_cons_of_pos (by simpa using hm),
          take_succ_cons, ih hr]
      · have hn : ∀ l : List ReplayMessage, l ⊆ m :: ms → l.filter (·.offset < e) = [] := by
          intro l hl
          rw [filter_eq_nil_iff]
          intro x hx
          rcases mem_cons.1 (hl hx) with rfl | hx
          · simpa using hm
          · have := hlt x hx
            simp only [decide_eq_true_eq]
            omega
        rw [hn _ (take_subset _ _), hn _ (List.Subset.refl _), take_nil]

/-- The temporary client consumes the partition of the cursor and no other. -/
def ConsumesOnly (q : Kafka.ReplayRequest) (tp : TopicPartition) : Prop := ∀ r ∈ q.records, r.topicPartition = tp

section
variable {resolver : Kafka.Resolver} {maxMessages : Nat} {subscriptions : List GoStr} {q : Kafka.ReplayRequest}
  {log : TopicPartition → List Record} {tp : TopicPartition} {start e : Int} {messages : List ReplayMessage}

/-- **A replay of one partition that does not fail returns the first `maxMessages` that are expected.** -/
theorem part_of_replay (hd : Delivers q log) (ho : ConsumesOnly q tp) (hps : (tp, start) ∈ q.positions)
    (he : q.endOffset tp = some e)
    (h : Kafka.replayFromOffsets resolver maxMessages subscriptions q = (messages, none)) :
    partitionPart tp e messages = (expectedPart resolver subscriptions (log tp) start e).take maxMessages := by
  by_cases hln : messages.length < maxMessages
  · have hp := Kafka.replayFromOffsets_complete hd (by rw [h]) (by rw [h]; exact hln) hps he
    rw [h] at hp
    change partitionPart tp e messages = _ at hp
    have hle : (partitionPart tp e messages).length ≤ messages.length := length_filter_le _ _
    rw [← hp, take_of_length_le (by omega)]
  · obtain ⟨fetched, hpr, hms⟩ := @Kafka.replayFromOffsets_messages resolver maxMessages subscriptions q
    rw [h] at hms
    change messages = _ at hms
    have htp : ∀ m ∈ fetched.filterMap (Kafka.replayMessage resolver subscriptions), (m.topic, m.partition) = tp := by
      intro m hm
      obtain ⟨r, hr, hrm⟩ := mem_filterMap.1 hm
      rw [(Kafka.replayMessage_some hrm).1]
      exact ho r (hpr.subset hr)
    have hb : ∀ l : List ReplayMessage, l ⊆ fetched.filterMap (Kafka.replayMessage resolver subscriptions) →
        partitionPart tp e l = l.filter (·.offset < e) := by
      intro l hl
      exact filter_congr fun m hm => by simp [htp m (hl hm)]
    have hs : (fetched.filterMap (Kafka.replayMessage resolver subscriptions)).Pairwise fun a b => a.offset < b.offset := by
      have hf : fetched.filter (·.topicPartition = tp) = fetched :=
        filter_eq_self.2 fun r hr => by simpa using ho r (hpr.subset hr)
      have hlg := ((hd.sorted tp).filter (start ≤ ·.offset)).sublist (Kafka.prefix_fetched hd hpr hps).sublist
      rw [hf] at hlg
      refine hlg.filterMap _ fun a b hab m hm m' hm' => ?_
      rw [(Kafka.replayMessage_some hm).2.1, (Kafka.replayMessage_some hm').2.1]
      exact hab
    have hp := @Kafka.prefix_part resolver subscriptions q log hd fetched hpr tp start hps e
    rw [hms, hb _ (take_subset _ _), filter_take_of_sorted hs]
    rw [hb _ (List.Subset.refl _)] at hp
    by_cases ha : ∀ m ∈ fetched.filterMap (Kafka.replayMessage resolver subscriptions), m.offset < e
    · -- the cap is reached below the end of the log
      obtain ⟨rest, hrs⟩ := hp
      have hfl : maxMessages ≤ ((fetched.filterMap (Kafka.replayMessage resolver subscriptions)).filter
          (·.offset < e)).length := by
        rw [filter_eq_self.2 fun m hm => by simpa using ha m hm]
        rw [hms, length_take] at hln
        omega
      rw [← hrs, take_append_of_le_length hfl]
    · -- a message from behind the end of the log was read
      push Not at ha
      obtain ⟨m, hm, hle⟩ := ha
      obtain ⟨r, hr, hrm⟩ := mem_filterMap.1 hm
      have hen : tp = r.topicPartition ∧ e - 1 ≤ r.offset := by
        rw [← (Kafka.replayMessage_some hrm).2.1]
        exact ⟨(ho r (hpr.subset hr)).symm, by omega⟩
      have hc := @Kafka.part_complete resolver subscriptions e q log hd fetched hpr tp start hps ⟨r, hr, hen⟩
      rw [hb _ (List.Subset.refl _)] at hc
      rw [hc]

end

/-! ## The verdict -/

section
variable {resolver : Kafka.Resolver} {log : List Record} {tp : TopicPartition} {ch : GoStr} {offset e : Int}

theorem expectedPart_of_registered (htp : ∀ r ∈ log, r.topicPartition = tp) {tenant : GoStr}
    (ht : extractTenant ch = some tenant) (hrs : resolver.bind (· tp.1) = extractTenant ch) :
    expectedPart resolver [ch] log offset e = (owed log tp ch (offset - 1) e).map (messageOf ch) := by
  have ho : ∀ r ∈ log, (Kafka.replayMessage resolver [ch] r) =
      if Kafka.findHeader r.headers Kafka.headerChannel = some ch then some (messageOf ch r) else none := by
    intro r hr
    have htc : resolver.bind (· r.topic) = some tenant := by
      rw [← ht, ← hrs, ← htp r hr]
      rfl
    split
    · rename_i hh
      exact replayMessage_of_header hh (mem_singleton.2 rfl) ht htc
    · rename_i hh
      cases hm : Kafka.replayMessage resolver [ch] r with
      | none => rfl
      | some m =>
        have hch : m.subject = ch := mem_singleton.1 (Kafka.replayMessage_some hm).2.2
        rw [← hch] at hh
        exact absurd (replayMessage_eq_some hm).2.1 hh
  rw [expectedPart, owed, ← filterMap_eq_map, filterMap_filter, filterMap_filter]
  refine filterMap_congr fun r hr => ?_
  have hin := htp r hr
  rw [ho r hr]
  by_cases hrn : offset ≤ r.offset ∧ r.offset < e
  · by_cases hh : Kafka.findHeader r.headers Kafka.headerChannel = some ch
    · have ha : offset - 1 < r.offset := by omega
      simp [hin, hh, hrn, ha]
    · simp [hh]
  · have hnot : ¬(r.topicPartition = tp ∧ Kafka.findHeader r.headers Kafka.headerChannel = some ch ∧
        offset - 1 < r.offset ∧ r.offset < e) := fun h => hrn ⟨by omega, h.2.2.2⟩
    simp only [hrn, hnot, decide_false, Bool.false_eq_true, if_false]

theorem expectedPart_of_not_registered (htp : ∀ r ∈ log, r.topicPartition = tp)
    (hrs : resolver.bind (· tp.1) ≠ extractTenant ch) : expectedPart resolver [ch] log offset e = [] := by
  refine filterMap_eq_nil_iff.2 fun r hr => ?_
  cases hm : Kafka.replayMessage resolver [ch] r with
  | none => rfl
  | some m =>
    obtain ⟨hms, -, hrg⟩ := replayMessage_eq_some hm
    have hch : m.subject = ch := mem_singleton.1 (Kafka.replayMessage_some hm).2.2
    have ht : m.topic = tp.1 := by
      rw [hms, ← htp r (mem_filter.1 hr).1]
      rfl
    rw [hch, ht] at hrg
    exact absurd hrg hrs

end

def missed (log : List Record) (tp : TopicPartition) (ch : GoStr) (offset e : Int) : List Record :=
  (owed log tp ch (offset - 1) e).filter fun r => validData r.value

theorem filter_valid_map (ch : GoStr) (rs : List Record) :
    (rs.map (messageOf ch)).filter (fun m => validData m.data) = (rs.filter fun r => validData r.value).map (messageOf ch) := by
  rw [filter_map]
  rfl

/-- **What `replay_complete` without `truncated` says**: the frames are the valid records from the position on exactly when the
registry has the topic under the tenant (or there is no such record) and none comes after the first `MaxReplayMessages`. -/
theorem replay_complete_iff (cfg : Config) (b : Backend) (c : Session) (l : LiveReplays) (inp : LiveInput) (data : GoStr)
    (req : LiveReplayRequest) (partition offset e : Int) (topic : GoStr) (log : TopicPartition → List Record) (n : Nat)
    (hreq : unmarshal liveReplayFields ⟨[], []⟩ data = some req)
    (hpos : decodePos req.fromPos = some (partition, offset)) (hb : cfg.backend = some b)
    (htopic : b.channelTopic req.channel = some topic)
    (hlog : ∀ r ∈ log (topic, partition), r.topicPartition = (topic, partition))
    (hd : Delivers (inp.backend.request (liveCursor req.channel (topic, partition) offset)) log)
    (honly : ConsumesOnly (inp.backend.request (liveCursor req.channel (topic, partition) offset)) (topic, partition))
    (he : (inp.backend.request (liveCursor req.channel (topic, partition) offset)).endOffset (topic, partition) = some e)
    (hreply : (handleReplayRequest cfg c l inp data).reply = .complete req.channel n false) :
    partitionPart (topic, partition) e (handleReplayRequest cfg c l inp data).sent =
        (missed (log (topic, partition)) (topic, partition) req.channel offset e).map (messageOf req.channel) ↔
      (inp.backend.tenantResolver.bind (· topic) = extractTenant req.channel ∨
        missed (log (topic, partition)) (topic, partition) req.channel offset e = []) ∧
      ∀ r ∈ (owed (log (topic, partition)) (topic, partition) req.channel (offset - 1) e).drop cfg.maxReplayMessages,
        validData r.value = false := by
  obtain ⟨⟨topicNamespace, pool, rulesProvider, hkafka⟩, tenant, htenant⟩ := channelTopic_some htopic
  have hlive := handleReplayRequest_complete hreq hpos hb htopic hreply
  rw [hlive] at hreply
  obtain ⟨messages, hreplay, hsent⟩ := liveReplay_complete hreply
  have hfrom : Kafka.replayFromOffsets inp.backend.tenantResolver cfg.maxReplayMessages [req.channel]
      (inp.backend.request (liveCursor req.channel (topic, partition) offset)) = (messages, none) := by
    rcases replay_eq_some hreplay with ⟨hdirect, -⟩ | heq
    · rw [hkafka] at hdirect
      cases hdirect
    · exact heq
  have hpart := part_of_replay hd honly (mem_singleton.2 rfl) he hfrom
  have hcomm : partitionPart (topic, partition) e (handleReplayRequest cfg c l inp data).sent =
      ((expectedPart inp.backend.tenantResolver [req.channel] (log (topic, partition)) offset e).take
        cfg.maxReplayMessages).filter fun m => validData m.data := by
    rw [hlive, hsent, ← hpart, partitionPart, partitionPart, filter_comm]
  rw [hcomm]
  by_cases hres : inp.backend.tenantResolver.bind (· topic) = extractTenant req.channel
  · rw [expectedPart_of_registered hlog htenant hres, ← map_take, filter_valid_map, missed]
    generalize owed (log (topic, partition)) (topic, partition) req.channel (offset - 1) e = rs
    have hsplit : rs.filter (fun r => validData r.value) =
        (rs.take cfg.maxReplayMessages).filter (fun r => validData r.value) ++
          (rs.drop cfg.maxReplayMessages).filter fun r => validData r.value := by
      rw [← filter_append, take_append_drop]
    rw [hsplit, map_append]
    constructor
    · intro heq
      have hnil := map_eq_nil_iff.1 (self_eq_append_right.1 heq)
      exact ⟨.inl hres, fun r hr => by simpa using filter_eq_nil_iff.1 hnil r hr⟩
    · rintro ⟨-, hdrop⟩
      have hnil : (rs.drop cfg.maxReplayMessages).filter (fun r => validData r.value) = [] :=
        filter_eq_nil_iff.2 fun r hr => by simp [hdrop r hr]
      rw [hnil, map_nil, append_nil]
  · rw [expectedPart_of_not_registered hlog hres, take_nil, filter_nil]
    constructor
    · intro heq
      have hnil := map_eq_nil_iff.1 heq.symm
      refine ⟨.inr hnil, fun r hr => ?_⟩
      simpa using filter_eq_nil_iff.1 hnil r (mem_of_mem_drop hr)
    · rintro ⟨hreg | hnil, -⟩
      · exact absurd hreg hres
      · rw [hnil, map_nil]

def newsGap : GoStr := str "\x7b\"channel\":\"acme.news\",\"from_pos\":\"1-6\"\x7d"
def newsReader : Session := newsClient.register [str "acme.news"]
def newsReplay : LiveInput := ⟨0, 0, newsRecovery Kafka.acmeResolver, fun _ => true⟩

theorem delivers_newsReplay :
    Delivers (newsReplay.backend.request (liveCursor (str "acme.news") (Kafka.acmeTopic, 0) 6)) newsLog := by
  refine ⟨(delivers_newsRecovery Kafka.acmeResolver).sorted, fun tp start h => ?_⟩
  obtain ⟨rfl, rfl⟩ := Prod.mk.inj (mem_singleton.1 h)
  change [newsMessage 6, newsMessage 7].filter (·.topicPartition = (Kafka.acmeTopic, 0)) <+: _
  decide

theorem replay_complete_iff_newsGap :
    partitionPart (Kafka.acmeTopic, 0) 8 (handleReplayRequest newsServer newsReader ⟨[], fun _ => none⟩ newsReplay newsGap).sent =
      (missed (newsLog (Kafka.acmeTopic, 0)) (Kafka.acmeTopic, 0) (str "acme.news") 6 8).map (messageOf (str "acme.news")) ∧
    (handleReplayRequest newsServer newsReader ⟨[], fun _ => none⟩ newsReplay newsGap).sent.map (·.offset) = [6, 7] :=
  ⟨(replay_complete_iff newsServer newsBackend newsReader ⟨[], fun _ => none⟩ newsReplay newsGap ⟨str "acme.news", str "1-6"⟩
      0 6 8 Kafka.acmeTopic newsLog 2 (by decide +kernel) (by decide +kernel) rfl (by decide +kernel) (by decide)
      delivers_newsReplay (by unfold ConsumesOnly; decide) rfl (by decide +kernel)).2
      ⟨.inl (by decide), by decide +kernel⟩,
    by decide +kernel⟩

/-- **Bug**: with room for one message the replay stops at the cap, and the client is told that it has everything. -/
theorem capped_replay_called_complete :
    let out := handleReplayRequest ⟨some newsBackend, 10, 1, false⟩ newsReader ⟨[], fun _ => none⟩ newsReplay newsGap
    out.reply = .complete (str "acme.news") 1 false ∧ out.sent.map (·.offset) = [6] ∧
      (missed (newsLog (Kafka.acmeTopic, 0)) (Kafka.acmeTopic, 0) (str "acme.news") 6 8).map (·.offset) = [6, 7] := by
  decide +kernel

end Sukko.Server
