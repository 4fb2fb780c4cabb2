import Sukko.Kafka.Record
import Sukko.Lib.Decimal
/-
# Replaying from offsets

**franz-go boundary**: an iteration of the poll loop meets a `Poll`: the context is done, the client is closed, or errors and
records come back. The loop also ends when the list of polls does. The polls deliver each requested partition in offset order
from the requested offset on, interleaved at will (`Delivers`).
-/

namespace Sukko.Kafka
open GoStr List

/-! ## Positions and messages -/

abbrev TopicPartition := GoStr × Int

def Record.topicPartition (r : Record) : TopicPartition := (r.topic, r.partition)

/-- See `server/history/codec.go:19`. -/
def encodePos (partition offset : Int) : GoStr := formatInt (partition + 1) ++ 45 :: formatInt offset

structure ReplayMessage where
  topic : GoStr
  partition : Int
  offset : Int
  subject : GoStr
  data : GoStr
  pos : GoStr
deriving DecidableEq

inductive ReplayErr
  | noPositions
  | setup
  | listEndOffsets
  | noEndOffset (tp : TopicPartition)
  | endOffset (tp : TopicPartition)
  | offsetOutOfRange
  | canceled
  | incomplete (pendingCount : Nat)
deriving DecidableEq

inductive FetchErr
  | offsetOutOfRange
  | other
deriving DecidableEq

inductive Poll
  | canceled
  | closed
  | fetched (errors : List FetchErr) (records : List Record)
deriving DecidableEq

inductive EndOffset
  | missing
  | failed
  | at (offset : Int)
deriving DecidableEq

structure ReplayRequest where
  positions : List (TopicPartition × Int)
  setup : Bool
  listed : Option (TopicPartition → EndOffset)
  polls : List Poll

def ReplayRequest.endOffset (q : ReplayRequest) (tp : TopicPartition) : Option Int :=
  match q.listed with
  | none => none
  | some listed =>
    match listed tp with
    | .at e => some e
    | _ => none

/-! ## The function -/

/-- The loop over the captured log ends (`server/kafka/consumer.go:1535-1558`). -/
def pendingEnds (listed : TopicPartition → EndOffset) : List (TopicPartition × Int) → Except ReplayErr (List (TopicPartition × Int))
  | [] => .ok []
  | (tp, start) :: positions =>
    match listed tp with
    | .missing => .error (.noEndOffset tp)
    | .failed => .error (.endOffset tp)
    | .at e =>
      if e < start then .error .offsetOutOfRange
      else
        match pendingEnds listed positions with
        | .error err => .error err
        | .ok pending => .ok (if start = e then pending else (tp, e) :: pending)

/-- Part of `ReplayFromOffsets` (`server/kafka/consumer.go:1444`). -/
def startReplay (q : ReplayRequest) : Except ReplayErr (List (TopicPartition × Int)) :=
  if q.positions = [] then .error .noPositions
  else if !q.setup then .error .setup
  else
    match q.listed with
    | none => .error .listEndOffsets
    | some listed => pendingEnds listed q.positions

structure Replay where
  pending : List (TopicPartition × Int)
  messages : List ReplayMessage

section
variable (tenantResolver : Resolver) (maxMessages : Nat) (subscriptions : List GoStr)

def replayMessage (r : Record) : Option ReplayMessage :=
  match extractChannel tenantResolver r with
  | (channel, none, _) =>
    if channel ∈ subscriptions then
      some ⟨r.topic, r.partition, r.offset, channel, r.value, encodePos r.partition r.offset⟩
    else none
  | _ => none

def visit (st : Replay) (r : Record) : Replay where
  pending := st.pending.filter fun p => ¬ (p.1 = r.topicPartition ∧ p.2 - 1 ≤ r.offset)
  messages :=
    if maxMessages ≤ st.messages.length then st.messages
    else st.messages ++ (replayMessage tenantResolver subscriptions r).toList

def Replay.active (st : Replay) : Bool := st.messages.length < maxMessages && st.pending ≠ []

def Replay.finish (st : Replay) : List ReplayMessage × Option ReplayErr :=
  (st.messages, if st.active maxMessages then some (.incomplete st.pending.length) else none)

def replayLoop (st : Replay) : List Poll → List ReplayMessage × Option ReplayErr
  | [] => if st.active maxMessages then (st.messages, some .canceled) else st.finish maxMessages
  | poll :: polls =>
    if !st.active maxMessages then st.finish maxMessages
    else
      match poll with
      | .canceled => (st.messages, some .canceled)
      | .closed => st.finish maxMessages
      | .fetched errors records =>
        if .offsetOutOfRange ∈ errors then ([], some .offsetOutOfRange)
        else if records = [] then st.finish maxMessages
        else replayLoop (records.foldl (visit tenantResolver maxMessages subscriptions) st) polls

/-- See `server/kafka/consumer.go:1444`. -/
def replayFromOffsets (q : ReplayRequest) : List ReplayMessage × Option ReplayErr :=
  match startReplay q with
  | .error e => ([], some e)
  | .ok [] => ([], none)
  | .ok pending => replayLoop tenantResolver maxMessages subscriptions ⟨pending, []⟩ q.polls

end

/-! ## What is delivered -/

def Poll.records : Poll → List Record
  | .fetched _ records => records
  | _ => []

def ReplayRequest.records (q : ReplayRequest) : List Record := q.polls.flatMap Poll.records

/-- The polls deliver the logs of the requested partitions from the requested offsets on. -/
structure Delivers (q : ReplayRequest) (log : TopicPartition → List Record) : Prop where
  sorted : ∀ tp, (log tp).Pairwise fun a b => a.offset < b.offset
  ordered : ∀ tp start, (tp, start) ∈ q.positions →
    q.records.filter (·.topicPartition = tp) <+: (log tp).filter (start ≤ ·.offset)

def partitionPart (tp : TopicPartition) (e : Int) (messages : List ReplayMessage) : List ReplayMessage :=
  messages.filter fun m => (m.topic, m.partition) = tp ∧ m.offset < e

section
variable {tenantResolver : Resolver} {maxMessages : Nat} {subscriptions : List GoStr} {st : Replay} {e : Int}

def expectedPart (tenantResolver : Resolver) (subscriptions : List GoStr) (log : List Record) (start e : Int) : List ReplayMessage :=
  (log.filter fun r => start ≤ r.offset ∧ r.offset < e).filterMap (replayMessage tenantResolver subscriptions)

theorem replayMessage_some {r : Record} {m : ReplayMessage} (h : replayMessage tenantResolver subscriptions r = some m) :
    (m.topic, m.partition) = r.topicPartition ∧ m.offset = r.offset ∧ m.subject ∈ subscriptions := by
  unfold replayMessage at h
  split at h
  · split at h
    · rename_i hs
      cases h
      exact ⟨rfl, rfl, hs⟩
    · cases h
  · cases h

/-! ## The loop -/

theorem foldl_visit_messages (records : List Record) (h : st.messages.length ≤ maxMessages) :
    (records.foldl (visit tenantResolver maxMessages subscriptions) st).messages =
      (st.messages ++ records.filterMap (replayMessage tenantResolver subscriptions)).take maxMessages := by
  induction records generalizing st with
  | nil => rw [foldl_nil, filterMap_nil, append_nil, take_of_length_le h]
  | cons r records ih =>
    rw [foldl_cons]
    have hl : (visit tenantResolver maxMessages subscriptions st r).messages.length ≤ maxMessages := by
      simp only [visit]
      split
      · exact h
      · cases replayMessage tenantResolver subscriptions r with
        | none => simpa using h
        | some m => simp only [Option.toList_some, length_append, length_singleton]; omega
    rw [ih hl]
    by_cases hc : maxMessages ≤ st.messages.length
    · simp only [visit, if_pos hc, take_append_of_le_length hc]
    · simp only [visit, if_neg hc, append_assoc]
      cases hm : replayMessage tenantResolver subscriptions r with
      | none => rw [filterMap_cons_none hm]; rfl
      | some m => rw [filterMap_cons_some hm]; rfl

theorem mem_foldl_visit_pending (records : List Record) {tp : TopicPartition} :
    (tp, e) ∈ (records.foldl (visit tenantResolver maxMessages subscriptions) st).pending ↔
      (tp, e) ∈ st.pending ∧ ∀ r ∈ records, ¬ (tp = r.topicPartition ∧ e - 1 ≤ r.offset) := by
  induction records generalizing st with
  | nil => simp
  | cons r records ih =>
    rw [foldl_cons, ih, forall_mem_cons]
    simp only [visit, mem_filter, decide_eq_true_eq, and_assoc]

/-- **The loop is determined by the records it looks at.** -/
theorem replayLoop_spec (st : Replay) (polls : List Poll) : ∃ fetched, fetched <+: polls.flatMap Poll.records ∧
      (replayLoop tenantResolver maxMessages subscriptions st polls = ([], some .offsetOutOfRange) ∨
        replayLoop tenantResolver maxMessages subscriptions st polls =
          ((fetched.foldl (visit tenantResolver maxMessages subscriptions) st).messages, some .canceled) ∨
        replayLoop tenantResolver maxMessages subscriptions st polls =
          (fetched.foldl (visit tenantResolver maxMessages subscriptions) st).finish maxMessages) := by
  induction polls generalizing st with
  | nil =>
    refine ⟨[], nil_prefix, .inr ?_⟩
    rw [replayLoop]
    split
    · exact .inl rfl
    · exact .inr rfl
  | cons poll polls ih =>
    unfold replayLoop
    split
    · exact ⟨[], nil_prefix, .inr (.inr rfl)⟩
    cases poll with
    | canceled => exact ⟨[], nil_prefix, .inr (.inl rfl)⟩
    | closed => exact ⟨[], nil_prefix, .inr (.inr rfl)⟩
    | fetched errors records =>
      dsimp only
      split
      · exact ⟨[], nil_prefix, .inl rfl⟩
      split
      · exact ⟨[], nil_prefix, .inr (.inr rfl)⟩
      · obtain ⟨fetched, hpre, ho⟩ := ih (records.foldl (visit tenantResolver maxMessages subscriptions) st)
        refine ⟨records ++ fetched, ?_, ?_⟩
        · rw [flatMap_cons]
          exact (prefix_append_right_inj records).2 hpre
        · rw [foldl_append]
          exact ho

/-! ## The whole function -/

theorem pendingEnds_ok {listed : TopicPartition → EndOffset} {positions pending : List (TopicPartition × Int)}
    (h : pendingEnds listed positions = .ok pending) :
    ∀ tp start, (tp, start) ∈ positions → ∃ e, listed tp = .at e ∧ start ≤ e ∧ (start ≠ e → (tp, e) ∈ pending) := by
  induction positions generalizing pending with
  | nil => simp
  | cons p positions ih =>
    obtain ⟨tp₀, start₀⟩ := p
    rw [pendingEnds] at h
    split at h
    · cases h
    · cases h
    rename_i e₀ hl
    split at h
    · cases h
    rename_i hr
    split at h
    · cases h
    rename_i rest hrs
    cases h
    intro tp start hm
    rcases mem_cons.1 hm with heq | hm
    · cases heq
      refine ⟨e₀, hl, not_lt.1 hr, fun hne => ?_⟩
      rw [if_neg hne]
      exact mem_cons_self
    · obtain ⟨e, he, hle, hp⟩ := ih hrs tp start hm
      refine ⟨e, he, hle, fun hne => ?_⟩
      split
      · exact hp hne
      · exact mem_cons_of_mem _ (hp hne)

theorem startReplay_ok {q : ReplayRequest} {pending : List (TopicPartition × Int)} (h : startReplay q = .ok pending)
    {tp : TopicPartition} {start : Int} (hpos : (tp, start) ∈ q.positions) (he : q.endOffset tp = some e) :
    start ≤ e ∧ (start ≠ e → (tp, e) ∈ pending) := by
  unfold startReplay at h
  split at h
  · cases h
  split at h
  · cases h
  split at h
  · cases h
  rename_i listed hl
  obtain ⟨e', he', hle, hp⟩ := pendingEnds_ok h tp start hpos
  simp only [ReplayRequest.endOffset, hl, he'] at he
  cases he
  exact ⟨hle, hp⟩

theorem replayFromOffsets_spec (q : ReplayRequest) :
    (∃ err, startReplay q = .error err ∧ replayFromOffsets tenantResolver maxMessages subscriptions q = ([], some err)) ∨
    ∃ pending fetched, startReplay q = .ok pending ∧ fetched <+: q.records ∧
      let st := fetched.foldl (visit tenantResolver maxMessages subscriptions) ⟨pending, []⟩
      (replayFromOffsets tenantResolver maxMessages subscriptions q = ([], some .offsetOutOfRange) ∨
        replayFromOffsets tenantResolver maxMessages subscriptions q = (st.messages, some .canceled) ∨
        replayFromOffsets tenantResolver maxMessages subscriptions q = st.finish maxMessages) := by
  unfold replayFromOffsets
  cases hs : startReplay q with
  | error err => exact .inl ⟨err, rfl, rfl⟩
  | ok pending =>
    cases pending with
    | nil =>
      refine .inr ⟨[], [], rfl, nil_prefix, .inr (.inr ?_)⟩
      simp [Replay.finish, Replay.active]
    | cons p pending =>
      obtain ⟨fetched, hpre, ho⟩ := replayLoop_spec ⟨p :: pending, []⟩ q.polls
      exact .inr ⟨p :: pending, fetched, rfl, hpre, ho⟩

theorem replayFromOffsets_messages (q : ReplayRequest) : ∃ fetched, fetched <+: q.records ∧
    (replayFromOffsets tenantResolver maxMessages subscriptions q).1 =
      (fetched.filterMap (replayMessage tenantResolver subscriptions)).take maxMessages := by
  have hm : ∀ fetched : List Record, ∀ pending,
      (fetched.foldl (visit tenantResolver maxMessages subscriptions) ⟨pending, []⟩).messages =
        (fetched.filterMap (replayMessage tenantResolver subscriptions)).take maxMessages := fun fetched pending =>
    foldl_visit_messages fetched (Nat.zero_le maxMessages)
  rcases @replayFromOffsets_spec tenantResolver maxMessages subscriptions q with ⟨err, -, ho⟩ | ⟨pending, fetched, -, hpre, ho⟩
  · exact ⟨[], nil_prefix, by rw [ho, filterMap_nil, take_nil]⟩
  · rcases ho with ho | ho | ho
    · exact ⟨[], nil_prefix, by rw [ho, filterMap_nil, take_nil]⟩
    · exact ⟨fetched, hpre, by rw [ho]; exact hm fetched pending⟩
    · exact ⟨fetched, hpre, by rw [ho]; exact hm fetched pending⟩

/-! ## The parts of the partitions -/

theorem partitionPart_filterMap (tp : TopicPartition) (e : Int) (records : List Record) :
    partitionPart tp e (records.filterMap (replayMessage tenantResolver subscriptions)) =
      ((records.filter (·.topicPartition = tp)).filter (·.offset < e)).filterMap (replayMessage tenantResolver subscriptions) := by
  induction records with
  | nil => rfl
  | cons r records ih =>
    unfold partitionPart at ih ⊢
    cases hm : replayMessage tenantResolver subscriptions r with
    | none =>
      rw [filterMap_cons_none hm, ih]
      by_cases hr : r.topicPartition = tp <;> by_cases ho : r.offset < e <;> simp [hr, ho, hm]
    | some m =>
      obtain ⟨htp, hof, -⟩ := replayMessage_some hm
      rw [filterMap_cons_some hm, filter_cons, ih, htp, hof]
      by_cases hr : r.topicPartition = tp <;> by_cases ho : r.offset < e <;> simp [hr, ho, hm]

theorem filter_range (records : List Record) (start e : Int) :
    (records.filter (start ≤ ·.offset)).filter (·.offset < e) = records.filter fun r => start ≤ r.offset ∧ r.offset < e := by
  rw [filter_filter]
  refine filter_congr fun r _ => ?_
  rw [Bool.decide_and, Bool.and_comm]

section Parts
variable {q : ReplayRequest} {log : TopicPartition → List Record} (hd : Delivers q log) {fetched : List Record}
  (hpre : fetched <+: q.records) {tp : TopicPartition} {start : Int} (hpos : (tp, start) ∈ q.positions)
include hd hpre hpos

theorem prefix_fetched : fetched.filter (·.topicPartition = tp) <+: (log tp).filter (start ≤ ·.offset) :=
  (hpre.filter _).trans (hd.ordered tp start hpos)

theorem prefix_part (e : Int) : partitionPart tp e (fetched.filterMap (replayMessage tenantResolver subscriptions)) <+:
      expectedPart tenantResolver subscriptions (log tp) start e := by
  rw [partitionPart_filterMap, expectedPart, ← filter_range]
  exact ((prefix_fetched hd hpre hpos).filter _).filterMap _

theorem part_complete (he : ∃ r ∈ fetched, tp = r.topicPartition ∧ e - 1 ≤ r.offset) :
    partitionPart tp e (fetched.filterMap (replayMessage tenantResolver subscriptions)) =
      expectedPart tenantResolver subscriptions (log tp) start e := by
  obtain ⟨r, hr, htp, hle⟩ := he
  obtain ⟨rest, hrs⟩ := prefix_fetched hd hpre hpos
  have hm : r ∈ fetched.filter (·.topicPartition = tp) := mem_filter.2 ⟨hr, by simp [htp]⟩
  have hs := ((hd.sorted tp).filter (start ≤ ·.offset))
  rw [← hrs] at hs
  -- what was not looked at comes after the record at the end
  have hl : rest.filter (·.offset < e) = [] := by
    rw [filter_eq_nil_iff]
    intro x hx
    have := (pairwise_append.1 hs).2.2 r hm x hx
    simp only [decide_eq_true_eq]
    omega
  rw [partitionPart_filterMap, expectedPart, ← filter_range, ← hrs, filter_append, hl, append_nil]

end Parts

theorem replayFromOffsets_complete {q : ReplayRequest} {log : TopicPartition → List Record} (hd : Delivers q log)
    (her : (replayFromOffsets tenantResolver maxMessages subscriptions q).2 = none)
    (hlt : (replayFromOffsets tenantResolver maxMessages subscriptions q).1.length < maxMessages)
    {tp : TopicPartition} {start : Int} (hpos : (tp, start) ∈ q.positions) (he : q.endOffset tp = some e) :
    partitionPart tp e (replayFromOffsets tenantResolver maxMessages subscriptions q).1 =
      expectedPart tenantResolver subscriptions (log tp) start e := by
  rcases @replayFromOffsets_spec tenantResolver maxMessages subscriptions q with ⟨err, -, ho⟩ | ⟨pending, fetched, hs, hpre, ho⟩
  · rw [ho] at her
    cases her
  rcases ho with ho | ho | ho
  · rw [ho] at her
    cases her
  · rw [ho] at her
    cases her
  rw [ho] at her hlt ⊢
  simp only [Replay.finish] at her hlt ⊢
  generalize hst : fetched.foldl (visit tenantResolver maxMessages subscriptions) ⟨pending, []⟩ = st at her hlt ⊢
  have hm : st.messages = (fetched.filterMap (replayMessage tenantResolver subscriptions)).take maxMessages := by
    rw [← hst]
    exact foldl_visit_messages fetched (Nat.zero_le maxMessages)
  have ha : st.messages = fetched.filterMap (replayMessage tenantResolver subscriptions) := by
    rw [hm, length_take] at hlt
    rw [hm, take_of_length_le (by omega)]
  have hem : st.pending = [] := by
    by_contra hne
    rw [if_pos (by simp [Replay.active, hlt, hne])] at her
    cases her
  rw [ha]
  obtain ⟨hle, hp⟩ := startReplay_ok hs hpos he
  by_cases hc : start = e
  · -- nothing to replay, and nothing below the end is delivered
    have hn : expectedPart tenantResolver subscriptions (log tp) start e = [] := by
      have hf : (log tp).filter (fun r => start ≤ r.offset ∧ r.offset < e) = [] := by
        rw [filter_eq_nil_iff]
        intro r _
        simp only [decide_eq_true_eq]
        omega
      rw [expectedPart, hf, filterMap_nil]
    rw [hn]
    exact prefix_nil.1 (hn ▸ prefix_part hd hpre hpos e)
  · refine part_complete hd hpre hpos ?_
    by_contra hcn
    have hmm : (tp, e) ∈ st.pending := by
      rw [← hst]
      refine (mem_foldl_visit_pending fetched).2 ⟨hp hc, fun r hr h => ?_⟩
      exact hcn ⟨r, hr, h⟩
    rw [hem] at hmm
    cases hmm

/-! ## The order of the messages -/

theorem expectedPart_sorted {log : List Record} (h : log.Pairwise fun a b => a.offset < b.offset) (start e : Int) :
    (expectedPart tenantResolver subscriptions log start e).Pairwise fun a b => a.offset < b.offset := by
  refine (h.filter _).filterMap _ fun a b hab m hm m' hm' => ?_
  rw [(replayMessage_some hm).2.1, (replayMessage_some hm').2.1]
  exact hab

/-- **The messages of a partition come in order and without a hole**, however the replay ends. -/
theorem earlier_of_replayed {q : ReplayRequest} {log : TopicPartition → List Record} (hd : Delivers q log)
    {before after : List ReplayMessage} {m m' : ReplayMessage}
    (hsp : (replayFromOffsets tenantResolver maxMessages subscriptions q).1 = before ++ m :: after) {start : Int}
    (hpos : ((m.topic, m.partition), start) ∈ q.positions)
    (hex : m' ∈ expectedPart tenantResolver subscriptions (log (m.topic, m.partition)) start m.offset) : m' ∈ before := by
  obtain ⟨fetched, hpre, hms⟩ := @replayFromOffsets_messages tenantResolver maxMessages subscriptions q
  have hs := @expectedPart_sorted tenantResolver subscriptions _ (hd.sorted (m.topic, m.partition)) start (m.offset + 1)
  -- the part of the partition up to the message is a prefix of what is expected
  have hp : partitionPart (m.topic, m.partition) (m.offset + 1) (before ++ m :: after) <+:
      expectedPart tenantResolver subscriptions (log (m.topic, m.partition)) start (m.offset + 1) := by
    rw [← hsp, hms]
    exact ((List.take_prefix _ _).filter _).trans (prefix_part hd hpre hpos _)
  have hm : partitionPart (m.topic, m.partition) (m.offset + 1) (before ++ m :: after) =
      partitionPart (m.topic, m.partition) (m.offset + 1) before ++
        m :: partitionPart (m.topic, m.partition) (m.offset + 1) after := by
    simp [partitionPart]
  obtain ⟨r, hr, hrm⟩ := mem_filterMap.1 hex
  obtain ⟨hl, hrn⟩ := mem_filter.1 hr
  obtain ⟨hst, hlt⟩ := of_decide_eq_true hrn
  have he : m' ∈ expectedPart tenantResolver subscriptions (log (m.topic, m.partition)) start (m.offset + 1) :=
    mem_filterMap.2 ⟨r, mem_filter.2 ⟨hl, decide_eq_true ⟨hst, by omega⟩⟩, hrm⟩
  rw [← (replayMessage_some hrm).2.1] at hlt
  obtain ⟨rest, hrs⟩ := hp
  rw [← hrs, hm] at hs he
  -- everything behind the message has a higher offset
  rw [append_assoc, cons_append, pairwise_append, pairwise_cons] at hs
  rw [append_assoc, cons_append, mem_append, mem_cons] at he
  rcases he with hb | rfl | ha
  · exact (mem_filter.1 hb).1
  · exact absurd hlt (lt_irrefl _)
  · exact absurd (hs.2.1.1 m' ha) (not_lt.2 hlt.le)

/-! ## An offset out of range -/

/-- With `n` messages collected and a partition that stays pending: the polls report an offset out of range before the
loop stops, or it stops with nothing collected. -/
def answeredInTime (maxMessages : Nat) (matching : Record → Bool) : Nat → List Poll → Bool
  | n, [] => n = 0
  | n, poll :: polls =>
    if maxMessages ≤ n then n = 0
    else
      match poll with
      | .canceled | .closed => n = 0
      | .fetched errors records =>
        .offsetOutOfRange ∈ errors ||
          if records = [] then n = 0
          else answeredInTime maxMessages matching (min maxMessages (n + records.countP matching)) polls

theorem replayLoop_eq_nil_iff {tp : TopicPartition} {polls : List Poll} (hpn : (tp, e) ∈ st.pending)
    (hl : st.messages.length ≤ maxMessages) (hn : ∀ r ∈ polls.flatMap Poll.records, r.topicPartition ≠ tp) :
    (replayLoop tenantResolver maxMessages subscriptions st polls).1 = [] ↔
      answeredInTime maxMessages (fun r => (replayMessage tenantResolver subscriptions r).isSome) st.messages.length polls = true := by
  have hne : st.pending ≠ [] := ne_nil_of_mem hpn
  induction polls generalizing st with
  | nil =>
    rw [replayLoop, answeredInTime]
    split <;> simp [Replay.finish]
  | cons poll polls ih =>
    unfold replayLoop answeredInTime
    by_cases hcp : maxMessages ≤ st.messages.length
    · have hs : st.active maxMessages = false := by simp [Replay.active, hcp]
      rw [if_pos hcp, hs]
      simp [Replay.finish]
    · have hgo : st.active maxMessages = true := by simpa [Replay.active, hne] using hcp
      rw [if_neg hcp, hgo]
      cases poll with
      | canceled => simp
      | closed => simp [Replay.finish]
      | fetched errors records =>
        by_cases ho : FetchErr.offsetOutOfRange ∈ errors
        · simp [ho]
        by_cases hrc : records = []
        · simp [ho, hrc, Replay.finish]
        have hm := @foldl_visit_messages tenantResolver maxMessages subscriptions st records hl
        have hc : (records.foldl (visit tenantResolver maxMessages subscriptions) st).messages.length =
            min maxMessages (st.messages.length +
              records.countP fun r => (replayMessage tenantResolver subscriptions r).isSome) := by
          rw [hm, length_take, length_append, length_filterMap_eq_countP]
        have hp : (tp, e) ∈ (records.foldl (visit tenantResolver maxMessages subscriptions) st).pending := by
          refine (mem_foldl_visit_pending records).2 ⟨hpn, fun r hr h => ?_⟩
          exact hn r (mem_flatMap.2 ⟨_, mem_cons_self, hr⟩) h.1.symm
        have hst := ih hp (by rw [hc]; exact Nat.min_le_left _ _)
          (fun r hr => hn r (by rw [flatMap_cons]; exact mem_append_right _ hr)) (ne_nil_of_mem hp)
        simp only [Bool.not_true, Bool.false_eq_true, if_false, ho, hrc, decide_false, Bool.false_or]
        rw [← hc]
        exact hst

/-- **`ReplayFromOffsets` is exact**, but for an out-of-range cursor: what it returns is the expected, whole below the cap and a
prefix of it at the cap. Of an out-of-range cursor it returns nothing iff the broker's answer comes in time. -/
theorem replayFromOffsets_exact (tenantResolver : Resolver) (maxMessages : Nat) (subscriptions : List GoStr)
    (q : ReplayRequest) (log : TopicPartition → List Record) (hd : Delivers q log) :
    ((replayFromOffsets tenantResolver maxMessages subscriptions q).2 = none →
      (replayFromOffsets tenantResolver maxMessages subscriptions q).1.length < maxMessages →
      ∀ tp start e, (tp, start) ∈ q.positions → q.endOffset tp = some e →
        partitionPart tp e (replayFromOffsets tenantResolver maxMessages subscriptions q).1 =
          expectedPart tenantResolver subscriptions (log tp) start e) ∧
    (replayFromOffsets tenantResolver maxMessages subscriptions q).1.length ≤ maxMessages ∧
    (∀ tp start e, (tp, start) ∈ q.positions → q.endOffset tp = some e →
      partitionPart tp e (replayFromOffsets tenantResolver maxMessages subscriptions q).1 <+:
        expectedPart tenantResolver subscriptions (log tp) start e) ∧
    (∀ m ∈ (replayFromOffsets tenantResolver maxMessages subscriptions q).1, m.subject ∈ subscriptions) ∧
    ∀ tp start e, (tp, start) ∈ q.positions → q.endOffset tp = some e →
      (e < start → (replayFromOffsets tenantResolver maxMessages subscriptions q).1 = []) ∧
      (start < e → (∀ r ∈ q.records, r.topicPartition ≠ tp) →
        ((replayFromOffsets tenantResolver maxMessages subscriptions q).1 = [] ↔
          (∃ err, startReplay q = .error err) ∨ answeredInTime maxMessages
            (fun r => (replayMessage tenantResolver subscriptions r).isSome) 0 q.polls = true)) := by
  obtain ⟨fetched, hpre, hmsgs⟩ := @replayFromOffsets_messages tenantResolver maxMessages subscriptions q
  refine ⟨fun herr hlt tp start e hpos he => ?_, ?_, fun tp start e hpos he => ?_, fun m hm => ?_,
    fun tp start e hpos he => ⟨fun hlt => ?_, fun hlt hnone => ?_⟩⟩
  · exact replayFromOffsets_complete hd herr hlt hpos he
  · rw [hmsgs]
    exact length_take_le _ _
  · rw [hmsgs]
    exact ((List.take_prefix _ _).filter _).trans (prefix_part hd hpre hpos e)
  · rw [hmsgs] at hm
    obtain ⟨r, -, hr⟩ := mem_filterMap.1 (mem_of_mem_take hm)
    exact (replayMessage_some hr).2.2
  · rcases @replayFromOffsets_spec tenantResolver maxMessages subscriptions q with ⟨err, -, hout⟩ | ⟨pending, fetched, hstart, -⟩
    · rw [hout]
    · exact absurd (startReplay_ok hstart hpos he).1 (not_le.2 hlt)
  · cases hstart : startReplay q with
    | error err => simp [replayFromOffsets, hstart]
    | ok pending =>
      have hpend := (startReplay_ok hstart hpos he).2 (ne_of_lt hlt)
      have hloop : replayFromOffsets tenantResolver maxMessages subscriptions q =
          replayLoop tenantResolver maxMessages subscriptions ⟨pending, []⟩ q.polls := by
        rw [replayFromOffsets, hstart]
        cases pending with
        | nil => cases hpend
        | cons p pending => rfl
      rw [hloop, @replayLoop_eq_nil_iff tenantResolver maxMessages subscriptions ⟨pending, []⟩ e tp q.polls hpend
        (Nat.zero_le _) hnone]
      simp

end

def acmeResolver : Resolver := some fun topic => if topic = acmeTopic then some (str "acme") else none
def newsRecord (partition offset : Int) : Record := { acmeRecord offset (str "acme.news") with partition := partition }

def twoPartitions : ReplayRequest where
  positions := [((acmeTopic, 0), 5), ((acmeTopic, 1), 2)]
  setup := true
  listed := some fun tp => if tp = (acmeTopic, 0) then .at 7 else .at 3
  polls := [.fetched [] [newsRecord 0 5, newsRecord 1 2], .fetched [.other] [newsRecord 0 6]]

def twoLogs (tp : TopicPartition) : List Record :=
  if tp = (acmeTopic, 0) then [newsRecord 0 4, newsRecord 0 5, newsRecord 0 6]
  else if tp = (acmeTopic, 1) then [newsRecord 1 1, newsRecord 1 2] else []

theorem delivers_twoPartitions : Delivers twoPartitions twoLogs where
  sorted tp := by
    unfold twoLogs
    split
    · decide
    · split
      · decide
      · exact .nil
  ordered tp start h := by
    simp only [twoPartitions, mem_cons, not_mem_nil, or_false] at h
    rcases h with h | h <;> cases h <;> decide

theorem replayFromOffsets_exact_twoPartitions :
    partitionPart (acmeTopic, 0) 7 (replayFromOffsets acmeResolver 10 [str "acme.news"] twoPartitions).1 =
      expectedPart acmeResolver [str "acme.news"] (twoLogs (acmeTopic, 0)) 5 7 :=
  (replayFromOffsets_exact acmeResolver 10 [str "acme.news"] twoPartitions twoLogs delivers_twoPartitions).1 (by decide)
    (by decide) (acmeTopic, 0) 5 7 (by decide) (by decide)

def staleCursor : ReplayRequest where
  positions := [((acmeTopic, 0), 5), ((acmeTopic, 1), 2)]
  setup := true
  listed := some fun tp => if tp = (acmeTopic, 0) then .at 6 else .at 9
  polls := [.fetched [] [newsRecord 0 5], .fetched [.offsetOutOfRange] []]

def staleLogs (tp : TopicPartition) : List Record :=
  if tp = (acmeTopic, 0) then [newsRecord 0 4, newsRecord 0 5]
  else if tp = (acmeTopic, 1) then [newsRecord 1 7, newsRecord 1 8] else []

theorem delivers_staleCursor : Delivers staleCursor staleLogs where
  sorted tp := by
    unfold staleLogs
    split
    · decide
    · split
      · decide
      · exact .nil
  ordered tp start h := by
    simp only [staleCursor, mem_cons, not_mem_nil, or_false] at h
    rcases h with h | h <;> cases h <;> decide

/-- **Bug**: the first poll fills the cap, so the loop stops before it learns that a cursor is out of range. -/
theorem stale_cursor_returns_message : Delivers staleCursor staleLogs ∧
    (replayFromOffsets acmeResolver 1 [str "acme.news"] staleCursor).1.map (·.offset) = [5] ∧
    (replayFromOffsets acmeResolver 1 [str "acme.news"] staleCursor).2 = none ∧
    replayFromOffsets acmeResolver 2 [str "acme.news"] staleCursor = ([], some .offsetOutOfRange) :=
  ⟨delivers_staleCursor, by decide, by decide, by decide⟩

end Sukko.Kafka
