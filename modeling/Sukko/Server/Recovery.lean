import Sukko.Kafka.Replay
import Sukko.Server.Reconnect
/-
# The recovery of an SSE subscription

The verdict rests on the channels that were authorized, an error of the replay and a truncation. From the end of the stream's
context on each control frame may be abandoned or not, as `select` picks one of the ready cases.
-/

namespace Sukko.Server
open GoStr Json ProvApi List
open Kafka (TopicPartition Record Resolver ReplayMessage ReplayRequest Delivers findHeader headerChannel)

/-! ## The replay -/

inductive Control
  | noReplay (channels : List GoStr)
  | replayTruncated (replayed : Nat)
  | recoveryComplete
deriving DecidableEq

structure RecoveryInput where
  consumer : Bool
  tenantResolver : Resolver
  setup : Bool
  listed : Option (TopicPartition → Kafka.EndOffset)
  polls : List Kafka.Poll
  expired : Bool
  room : Nat
  enqueued : Control → Bool

def RecoveryInput.request (inp : RecoveryInput) (cursor : Cursor) : ReplayRequest :=
  ⟨cursor.positions, inp.setup, inp.listed, inp.polls⟩

/-- Models `Replay` of the two backends (`server/backend/kafkabackend/kafkabackend.go:397`, `directbackend.go:93`). -/
def Backend.replay (b : Backend) (inp : RecoveryInput) (maxMessages : Nat) (cursor : Cursor) : Option (List ReplayMessage) :=
  match b with
  | .direct => some []
  | .kafka _ pool _ =>
    if !pool || !inp.consumer then none
    else
      match Kafka.replayFromOffsets inp.tenantResolver maxMessages cursor.authorized (inp.request cursor) with
      | (messages, none) => some messages
      | (_, some _) => none

section Replay
variable {b : Backend} {inp : RecoveryInput} {maxMessages : Nat} {cursor : Cursor} {messages : List ReplayMessage}

variable (h : b.replay inp maxMessages cursor = some messages)
include h

theorem replay_eq_some : (b = .direct ∧ messages = []) ∨
      Kafka.replayFromOffsets inp.tenantResolver maxMessages cursor.authorized (inp.request cursor) = (messages, none) := by
  unfold Backend.replay at h
  split at h
  · cases h
    exact .inl ⟨rfl, rfl⟩
  · split at h
    · cases h
    split at h
    · rename_i heq
      cases h
      exact .inr heq
    · cases h

theorem replay_messages : ∃ fetched, fetched <+: (inp.request cursor).records ∧
      messages = (fetched.filterMap (Kafka.replayMessage inp.tenantResolver cursor.authorized)).take maxMessages := by
  rcases replay_eq_some h with ⟨-, rfl⟩ | heq
  · exact ⟨[], nil_prefix, by simp⟩
  · obtain ⟨fetched, hp, hm⟩ :=
      @Kafka.replayFromOffsets_messages inp.tenantResolver maxMessages cursor.authorized (inp.request cursor)
    rw [heq] at hm
    exact ⟨fetched, hp, hm⟩

theorem record_of_replay {m : ReplayMessage} (hm : m ∈ messages) :
    ∃ r ∈ (inp.request cursor).records, Kafka.replayMessage inp.tenantResolver cursor.authorized r = some m := by
  obtain ⟨fetched, hp, rfl⟩ := replay_messages h
  obtain ⟨r, hr, hrm⟩ := mem_filterMap.1 (mem_of_mem_take hm)
  exact ⟨r, hp.subset hr, hrm⟩

end Replay

structure Forwarded where
  sent : List ReplayMessage
  full : Bool
  serializeFailed : Bool
deriving DecidableEq

/-- The loop of `replayAuthorizedToClient` (`server/replay_shared.go:112-143`). -/
def forward : Nat → List ReplayMessage → Forwarded
  | _, [] => ⟨[], false, false⟩
  | room, m :: ms =>
    if (parse m.data).isNone then { forward room ms with serializeFailed := true }
    else
      match room with
      | 0 => ⟨[], true, false⟩
      | room + 1 =>
        let f := forward room ms
        { f with sent := m :: f.sent }

structure Replayed where
  sent : List ReplayMessage
  truncated : Bool
  failed : Bool
deriving DecidableEq

/-- See `server/replay_shared.go:98`. -/
def replayAuthorizedToClient (cfg : Config) (b : Backend) (inp : RecoveryInput) (cursor : Cursor) : Replayed :=
  match b.replay inp cfg.maxReplayMessages cursor with
  | none => ⟨[], false, true⟩
  | some messages =>
    let f := forward inp.room messages
    ⟨f.sent, f.full || decide (cfg.maxReplayMessages ≤ messages.length) || inp.expired || f.serializeFailed, false⟩

theorem forward_sent_eq (room : Nat) (ms : List ReplayMessage) :
    (forward room ms).sent = (ms.filter fun m => (parse m.data).isSome).take room := by
  induction ms generalizing room with
  | nil => rw [forward, filter_nil, take_nil]
  | cons m ms ih =>
    unfold forward
    cases hm : parse m.data with
    | none => simp [hm, ih]
    | some v =>
      cases room with
      | zero => simp
      | succ room => simp [hm, ih]

theorem forward_sent_subset (room : Nat) (ms : List ReplayMessage) : (forward room ms).sent ⊆ ms := by
  rw [forward_sent_eq]
  exact fun m hm => mem_of_mem_filter (mem_of_mem_take hm)

theorem forward_sent {room : Nat} {ms : List ReplayMessage} (hf : (forward room ms).full = false)
    (hs : (forward room ms).serializeFailed = false) : (forward room ms).sent = ms := by
  induction ms generalizing room with
  | nil => rfl
  | cons m ms ih =>
    unfold forward at hf hs ⊢
    by_cases hm : (parse m.data).isNone
    · rw [if_pos hm] at hs
      cases hs
    · rw [if_neg hm] at hf hs ⊢
      cases room with
      | zero => cases hf
      | succ room => exact congrArg (m :: ·) (ih hf hs)

/-! ## The verdict -/

structure SubscribeRequest where
  channels : List GoStr
  lastPos : StrMap
  cursorPresented : Bool
deriving DecidableEq

/-- See `server/replay_shared.go:175`. -/
def recoveryOutcome (requested authorized : List GoStr) (truncated failed : Bool) : List GoStr × Bool :=
  let truncated := truncated && !failed
  let recovered := if !failed && !truncated then authorized else []
  ((requested.filter (· ∉ recovered)).dedup.insertionSort (· ≤ ·), truncated)

def controlFrames (requested authorized : List GoStr) (replayed : Nat) (truncated failed : Bool) : List Control :=
  let (possibleGap, isTruncated) := recoveryOutcome requested authorized truncated failed
  (if possibleGap ≠ [] then [.noReplay possibleGap] else []) ++
    (if isTruncated then [.replayTruncated replayed] else []) ++ [.recoveryComplete]

section
variable (cfg : Config) (b : Backend) (inp : RecoveryInput) (c : Session) (req : SubscribeRequest)

def recoveryCursor : Cursor := authorizeLastPos cfg b (c.register req.channels) req.lastPos

def recoveryReplay : Replayed :=
  let cursor := recoveryCursor cfg b c req
  if cursor.positions = [] then ⟨[], false, false⟩ else replayAuthorizedToClient cfg b inp cursor

def verdict : List Control :=
  if !req.cursorPresented && req.lastPos = [] then []
  else
    let replayed := recoveryReplay cfg b inp c req
    (controlFrames req.channels (recoveryCursor cfg b c req).authorized replayed.sent.length replayed.truncated
      replayed.failed).filter inp.enqueued

/-- The channel was authorized, and the replay neither failed nor was truncated. -/
def Recovered (ch : GoStr) : Prop :=
  ch ∈ (recoveryCursor cfg b c req).authorized ∧ (recoveryReplay cfg b inp c req).failed = false ∧
    (recoveryReplay cfg b inp c req).truncated = false

instance (ch : GoStr) : Decidable (Recovered cfg b inp c req ch) := inferInstanceAs (Decidable (_ ∧ _))

end

def reported (frames : List Control) (ch : GoStr) : Bool :=
  frames.any fun
    | .noReplay channels => ch ∈ channels
    | _ => false

section
variable {cfg : Config} {b : Backend} {inp : RecoveryInput} {c : Session} {req : SubscribeRequest} {ch tenant : GoStr}
  {subscriptions : List GoStr} {tenantResolver : Resolver} {m : ReplayMessage} {r : Record}

theorem mem_recoveryOutcome {requested authorized : List GoStr} {truncated failed : Bool} :
    ch ∈ (recoveryOutcome requested authorized truncated failed).1 ↔
      ch ∈ requested ∧ ¬ (ch ∈ authorized ∧ failed = false ∧ truncated = false) := by
  rw [recoveryOutcome, mem_insertionSort, mem_dedup, mem_filter]
  cases failed <;> cases truncated <;> simp

theorem reported_of_not_recovered (he : ∀ f, inp.enqueued f = true) (hch : ch ∈ req.channels)
    (hl : req.lastPos ≠ []) (h : ¬ Recovered cfg b inp c req ch) :
    reported (verdict cfg b inp c req) ch = true := by
  have hg := mem_recoveryOutcome.2 ⟨hch, h⟩
  have hf : Control.noReplay (recoveryOutcome req.channels (recoveryCursor cfg b c req).authorized
      (recoveryReplay cfg b inp c req).truncated (recoveryReplay cfg b inp c req).failed).1 ∈ verdict cfg b inp c req := by
    simp [verdict, controlFrames, hl, he, ne_nil_of_mem hg]
  exact any_eq_true.2 ⟨_, hf, decide_eq_true hg⟩

/-! ## What a recovered channel was sent -/

def messageOf (ch : GoStr) (r : Record) : ReplayMessage :=
  ⟨r.topic, r.partition, r.offset, ch, r.value, Kafka.encodePos r.partition r.offset⟩

def owed (log : List Record) (tp : TopicPartition) (ch : GoStr) (offset e : Int) : List Record :=
  log.filter fun r => r.topicPartition = tp ∧ findHeader r.headers headerChannel = some ch ∧ offset < r.offset ∧ r.offset < e

/-- The request's position of a channel: its partition and its offset. -/
def HasPos (b : Backend) (req : SubscribeRequest) (ch : GoStr) (tp : TopicPartition) (offset : Int) : Prop :=
  ∃ pos, (ch, pos) ∈ req.lastPos ∧ decodePos pos = some (tp.2, offset) ∧ b.channelTopic ch = some tp.1

theorem decodePos_nonneg {pos : GoStr} {partition offset : Int} (h : decodePos pos = some (partition, offset)) :
    0 ≤ offset := by
  unfold decodePos at h
  split at h
  · cases h
  split at h
  · cases h
  split at h
  · cases h
  split at h
  · cases h
  split at h
  · cases h
  rename_i hs
  cases h
  exact not_lt.1 hs

theorem decodePos_encodePos {partition offset : Int} (hp : 0 ≤ partition) (ho : 0 ≤ offset) {q : Int × Int}
    (h : decodePos (Kafka.encodePos partition offset) = some q) : q = (partition, offset) := by
  have hnt : ∀ n : Int, 0 ≤ n → formatInt n = formatNat n.natAbs := fun n hn => if_neg (not_lt.2 hn)
  have hd : dash ∉ formatNat (partition + 1).natAbs := fun hm => absurd (formatNat_isDigit _ _ hm) (by decide)
  have hc : cut (Kafka.encodePos partition offset) dash =
      some (formatNat (partition + 1).natAbs, formatNat offset.natAbs) := by
    rw [Kafka.encodePos, hnt _ (by omega), hnt _ ho]
    exact cut_append hd _
  rw [decodePos, hc] at h
  simp only [parseInt_formatNat] at h
  split at h
  · cases h
  rename_i ms hms
  split at hms
  swap
  · cases hms
  cases hms
  split at h
  · cases h
  split at h
  · cases h
  rename_i seq hs
  split at hs
  swap
  · cases hs
  cases hs
  split at h
  · cases h
  cases h
  exact Prod.ext (by simp only; omega) (by simp only; omega)

theorem extractTenant_eq_some (h : extractTenant ch = some tenant) :
    ∃ i, ch.indexByte dot = some (i + 1) ∧ tenant = ch.take (i + 1) := by
  unfold extractTenant at h
  split at h
  · cases h
  · cases h
  rename_i i hi hd
  obtain ⟨j, rfl⟩ := Nat.exists_eq_succ_of_ne_zero hi
  cases h
  exact ⟨j, hd, rfl⟩

theorem replayMessage_of_header (hh : findHeader r.headers headerChannel = some ch) (hs : ch ∈ subscriptions)
    (ht : extractTenant ch = some tenant) (hr : tenantResolver.bind (· r.topic) = some tenant) :
    Kafka.replayMessage tenantResolver subscriptions r = some (messageOf ch r) := by
  have he : Kafka.extractChannel tenantResolver r = (ch, none, tenant) := by
    obtain ⟨i, hd, rfl⟩ := extractTenant_eq_some ht
    simp [Kafka.extractChannel, hr, hh, hd]
  rw [Kafka.replayMessage, he]
  simp only [if_pos hs, messageOf]

theorem replayMessage_eq_some (h : Kafka.replayMessage tenantResolver subscriptions r = some m) :
    m = messageOf m.subject r ∧ findHeader r.headers headerChannel = some m.subject ∧
      tenantResolver.bind (· m.topic) = extractTenant m.subject := by
  have he : ∀ channel tenant, Kafka.extractChannel tenantResolver r = (channel, none, tenant) →
      findHeader r.headers headerChannel = some channel ∧ tenantResolver.bind (· r.topic) = extractTenant channel := by
    intro channel tenant h
    unfold Kafka.extractChannel at h
    split at h
    · cases h
    rename_i hr
    split at h
    · cases h
    rename_i hh
    split at h
    · cases h
    · cases h
    rename_i i hi hd
    split at h
    · cases h
    rename_i ht
    cases h
    refine ⟨hh, ?_⟩
    rw [hr, extractTenant, hd]
    simp [not_not.1 ht]
  unfold Kafka.replayMessage at h
  split at h
  · rename_i channel tenant heq
    split at h
    · cases h
      exact ⟨rfl, he channel tenant heq⟩
    · cases h
  · cases h

theorem replayAuthorizedToClient_complete {cursor : Cursor} {topicNamespace : GoStr} {pool : Bool}
    {rulesProvider : Option Provider} (hb : b = .kafka topicNamespace pool rulesProvider)
    (hf : (replayAuthorizedToClient cfg b inp cursor).failed = false)
    (ht : (replayAuthorizedToClient cfg b inp cursor).truncated = false) :
    ∃ messages, Kafka.replayFromOffsets inp.tenantResolver cfg.maxReplayMessages cursor.authorized (inp.request cursor) =
        (messages, none) ∧
      messages.length < cfg.maxReplayMessages ∧ (replayAuthorizedToClient cfg b inp cursor).sent = messages := by
  unfold replayAuthorizedToClient at hf ht ⊢
  cases hr : b.replay inp cfg.maxReplayMessages cursor with
  | none => simp [hr] at hf
  | some messages =>
    simp only [hr, Bool.or_eq_false_iff, decide_eq_false_iff_not, not_le] at ht ⊢
    obtain ⟨⟨⟨hfl, hl⟩, -⟩, hs⟩ := ht
    refine ⟨messages, ?_, hl, forward_sent hfl hs⟩
    rcases replay_eq_some hr with ⟨hd, -⟩ | heq
    · rw [hb] at hd
      cases hd
    · exact heq

theorem channelTopic_some {topic : GoStr} (h : b.channelTopic ch = some topic) :
    (∃ topicNamespace pool rulesProvider, b = .kafka topicNamespace pool rulesProvider) ∧
      ∃ tenant, extractTenant ch = some tenant := by
  unfold Backend.channelTopic at h
  split at h
  · cases h
  refine ⟨⟨_, _, _, rfl⟩, ?_⟩
  split at h
  · cases h
  split at h
  · cases h
  split at h
  · cases h
  exact ⟨_, ‹_›⟩

section Sound
variable {log : TopicPartition → List Record} {tp : TopicPartition} {offset e : Int}

/-- **A recovered channel was sent what it is owed**, if the registry has its topic under its tenant. -/
theorem sent_of_recovered (hk : (req.lastPos.map Prod.fst).Nodup)
    (hd : Delivers (inp.request (recoveryCursor cfg b c req)) log) (hps : HasPos b req ch tp offset)
    (he : (inp.request (recoveryCursor cfg b c req)).endOffset tp = some e) (hrc : Recovered cfg b inp c req ch)
    (hrs : inp.tenantResolver.bind (· tp.1) = extractTenant ch) :
    ∀ r ∈ owed (log tp) tp ch offset e, messageOf ch r ∈ (recoveryReplay cfg b inp c req).sent := by
  obtain ⟨ha, hf, htr⟩ := hrc
  obtain ⟨pos, hmm, hdd, hto⟩ := hps
  obtain ⟨⟨topicNamespace, pool, rulesProvider, hb⟩, tenant, ht⟩ := channelTopic_some hto
  obtain ⟨pos', topic', partition', offset', start, hm, hdc, htc, hl, hle⟩ := position_le ha
  have hp : pos' = pos := congrArg Prod.snd (inj_on_of_nodup_map hk hm hmm rfl)
  rw [hp, hdd] at hdc
  rw [hto] at htc
  cases hdc
  cases htc
  have hst : start ≤ offset + 1 := hle.trans (wrapInt64_le (by have := decodePos_nonneg hdd; omega))
  have hin : (tp, start) ∈ (recoveryCursor cfg b c req).positions := mem_of_lookup hl
  rw [recoveryReplay, if_neg (ne_nil_of_mem hin)] at hf htr ⊢
  obtain ⟨messages, hrp, hln, hs⟩ := replayAuthorizedToClient_complete hb hf htr
  have hpr := Kafka.replayFromOffsets_complete hd (by rw [hrp]) (by rw [hrp]; exact hln) hin he
  intro r hr
  obtain ⟨hlg, hr⟩ := mem_filter.1 hr
  obtain ⟨htp, hh, hlt, hen⟩ := of_decide_eq_true hr
  have hex : messageOf ch r ∈ Kafka.expectedPart inp.tenantResolver (recoveryCursor cfg b c req).authorized
      (log tp) start e := by
    refine mem_filterMap.2 ⟨r, mem_filter.2 ⟨hlg, decide_eq_true ⟨by omega, hen⟩⟩, ?_⟩
    refine replayMessage_of_header hh ha ht ?_
    rw [← ht, ← hrs, ← htp]
    rfl
  rw [← hpr, hrp] at hex
  rw [hs]
  exact (mem_filter.1 hex).1

theorem resolved_of_sent (h : m ∈ (recoveryReplay cfg b inp c req).sent) :
    inp.tenantResolver.bind (· m.topic) = extractTenant m.subject := by
  dsimp only [recoveryReplay] at h
  split at h
  · cases h
  unfold replayAuthorizedToClient at h
  split at h
  · cases h
  rename_i messages hrp
  obtain ⟨r, -, hr⟩ := record_of_replay hrp (forward_sent_subset _ _ h)
  exact (replayMessage_eq_some hr).2.2

end Sound
end

/-- **The verdict is sound exactly when the registry can resolve what it vouches for**, or the live path (`live`) had delivered
it anyway: of a requested channel that no `no_replay` frame names, if no frame was abandoned, every owed record was sent. -/
theorem recovery_sound_iff (cfg : Config) (b : Backend) (inp : RecoveryInput) (c : Session) (req : SubscribeRequest)
    (log : TopicPartition → List Record) (live : List ReplayMessage) (ch : GoStr) (tp : TopicPartition) (offset e : Int)
    (hkeys : (req.lastPos.map Prod.fst).Nodup) (hd : Delivers (inp.request (recoveryCursor cfg b c req)) log)
    (hpos : HasPos b req ch tp offset) (he : (inp.request (recoveryCursor cfg b c req)).endOffset tp = some e)
    (hreq : ch ∈ req.channels) (henq : ∀ f, inp.enqueued f = true) (hquiet : reported (verdict cfg b inp c req) ch = false) :
    (∀ r ∈ owed (log tp) tp ch offset e, messageOf ch r ∈ live ++ (recoveryReplay cfg b inp c req).sent) ↔
      inp.tenantResolver.bind (· tp.1) = extractTenant ch ∨ ∀ r ∈ owed (log tp) tp ch offset e, messageOf ch r ∈ live := by
  have hrec : Recovered cfg b inp c req ch := by
    obtain ⟨pos, hmem, -⟩ := hpos
    by_contra hrec
    rw [reported_of_not_recovered henq hreq (ne_nil_of_mem hmem) hrec] at hquiet
    cases hquiet
  constructor
  · refine fun h => or_iff_not_imp_left.2 fun hres r hr => ?_
    refine (mem_append.1 (h r hr)).resolve_right fun hsent => hres ?_
    have htp : r.topicPartition = tp := (of_decide_eq_true (mem_filter.1 hr).2).1
    rw [← htp]
    exact resolved_of_sent hsent
  · rintro (hres | hlive) r hr
    · exact mem_append_right _ (sent_of_recovered hkeys hd hpos he hrec hres r hr)
    · exact mem_append_left _ (hlive r hr)

def newsBackend : Backend := .kafka (str "prod") true (some { Provider.empty with snapshotReceived := true })
def newsServer : Config := ⟨some newsBackend, 10, 100, false⟩
def newsClient : Session := ⟨0, str "acme", .empty, .empty⟩
def newsRequest : SubscribeRequest := ⟨[str "acme.news"], [(str "acme.news", str "1-5")], true⟩
def newsMessage (offset : Int) : Record := { Kafka.newsRecord 0 offset with value := str "1" }

def newsRecovery (tenantResolver : Resolver) : RecoveryInput where
  consumer := true
  tenantResolver := tenantResolver
  setup := true
  listed := some fun _ => .at 8
  polls := [.fetched [] [newsMessage 6, newsMessage 7]]
  expired := false
  room := 10
  enqueued := fun _ => true

def newsLog (tp : TopicPartition) : List Record :=
  if tp = (Kafka.acmeTopic, 0) then [newsMessage 4, newsMessage 5, newsMessage 6, newsMessage 7] else []

theorem delivers_newsRecovery (tenantResolver : Resolver) :
    Delivers ((newsRecovery tenantResolver).request (recoveryCursor newsServer newsBackend newsClient newsRequest)) newsLog where
  sorted tp := by
    unfold newsLog
    split
    · decide
    · exact .nil
  ordered tp start h := by
    have hp : (recoveryCursor newsServer newsBackend newsClient newsRequest).positions = [((Kafka.acmeTopic, 0), 6)] := by
      decide +kernel
    simp only [RecoveryInput.request, hp, mem_singleton] at h
    cases h
    change [newsMessage 6, newsMessage 7].filter (·.topicPartition = (Kafka.acmeTopic, 0)) <+: _
    decide

theorem hasPos_newsRequest : HasPos newsBackend newsRequest (str "acme.news") (Kafka.acmeTopic, 0) 5 :=
  ⟨str "1-5", by decide, by decide +kernel, by decide +kernel⟩

theorem recovery_sound_iff_news :
    verdict newsServer newsBackend (newsRecovery Kafka.acmeResolver) newsClient newsRequest = [.recoveryComplete] ∧
    (owed (newsLog (Kafka.acmeTopic, 0)) (Kafka.acmeTopic, 0) (str "acme.news") 5 8).map (·.offset) = [6, 7] ∧
    ∀ r ∈ owed (newsLog (Kafka.acmeTopic, 0)) (Kafka.acmeTopic, 0) (str "acme.news") 5 8, messageOf (str "acme.news") r ∈
      [] ++ (recoveryReplay newsServer newsBackend (newsRecovery Kafka.acmeResolver) newsClient newsRequest).sent :=
  ⟨by decide +kernel, by decide +kernel, (recovery_sound_iff newsServer newsBackend (newsRecovery Kafka.acmeResolver)
    newsClient newsRequest newsLog [] (str "acme.news") (Kafka.acmeTopic, 0) 5 8 (by decide) (delivers_newsRecovery _)
    hasPos_newsRequest (by decide +kernel) (by decide) (fun _ => rfl) (by decide +kernel)).2 (.inl (by decide +kernel))⟩

/-- **Bug**: of a topic that the registry does not have yet, the replay skips both records, and the channel is said to be
recovered. -/
theorem unregistered_topic_reported_recovered :
    Delivers ((newsRecovery (some fun _ => none)).request (recoveryCursor newsServer newsBackend newsClient newsRequest))
      newsLog ∧
    verdict newsServer newsBackend (newsRecovery (some fun _ => none)) newsClient newsRequest = [.recoveryComplete] ∧
    (owed (newsLog (Kafka.acmeTopic, 0)) (Kafka.acmeTopic, 0) (str "acme.news") 5 8).map (·.offset) = [6, 7] ∧
    (recoveryReplay newsServer newsBackend (newsRecovery (some fun _ => none)) newsClient newsRequest).sent = [] :=
  ⟨delivers_newsRecovery _, by decide +kernel, by decide +kernel, by decide +kernel⟩

end Sukko.Server
