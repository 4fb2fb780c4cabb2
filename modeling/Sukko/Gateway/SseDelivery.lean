import Sukko.Gateway.SseStream
/-
# The event ids of an SSE stream

Queue, gRPC stream and writes are one sequence of frames. A message comes after everything of its channel since the inbound
cursor, or after a frame that reports the gap (`MessageOk`).
-/

namespace Sukko.Gateway.SseStream
open Json Server List
open Kafka (TopicPartition Record ReplayMessage ReplayRequest Delivers findHeader headerChannel encodePos)

/-! ## The log -/

structure LogInv (p : Params) (log : List Record) : Prop where
  ordered : log.Pairwise fun a b => a.topicPartition = b.topicPartition → a.offset < b.offset
  natural : ∀ r ∈ log, 0 ≤ r.partition ∧ 0 ≤ r.offset
  routed : ∀ r ∈ log, ∀ ch ∈ p.channels, channelOf r = some ch → p.backend.channelTopic ch = some r.topic

section
variable {p : Params} {log : List Record} {e : Event}

variable {a : Act} {events : List Event} {f : StreamFrame} {inp : RecoveryInput} {l : Loop} {m : ReplayMessage} {order : StrMap}
  {r r₀ : Record}

theorem LogInv.same_partition (h : LogInv p log) {ch : GoStr} (hch : ch ∈ p.channels) {r' : Record} (hr : r ∈ log)
    (hr' : r' ∈ log) (hc : channelOf r = some ch) (hc' : channelOf r' = some ch) (hp : r.partition = r'.partition) :
    r.topicPartition = r'.topicPartition := by
  have ht := (h.routed r hr ch hch hc).symm.trans (h.routed r' hr' ch hch hc')
  exact Prod.ext (Option.some.inj ht) hp

theorem LogInv.delivers (h : LogInv p log) {q : ReplayRequest} (hq : Delivered q log) : Delivers q (partitionLog log) where
  sorted tp := by
    have hs := h.ordered.filter (·.topicPartition = tp)
    refine hs.imp_of_mem fun {a b} ha hb hab => hab ?_
    rw [of_decide_eq_true (mem_filter.1 ha).2, of_decide_eq_true (mem_filter.1 hb).2]
  ordered tp start hp := hq.2 (tp, start) hp

theorem LogInv.produce (h : LogInv p log) (hn : 0 ≤ r.partition ∧ 0 ≤ r.offset)
    (hnw : ∀ r' ∈ log, r'.topicPartition = r.topicPartition → r'.offset < r.offset)
    (hg : ∀ ch ∈ channelOf r, ch ∈ p.channels → p.backend.channelTopic ch = some r.topic) : LogInv p (log ++ [r]) where
  ordered := by
    rw [pairwise_append]
    refine ⟨h.ordered, pairwise_singleton _ r, fun a ha b hb => ?_⟩
    rw [mem_singleton.1 hb]
    exact hnw a ha
  natural := by
    rw [forall_mem_append]
    refine ⟨h.natural, fun a ha => ?_⟩
    rw [mem_singleton.1 ha]
    exact hn
  routed := by
    rw [forall_mem_append]
    refine ⟨h.routed, fun a ha ch hch hc => ?_⟩
    rw [mem_singleton.1 ha] at hc ⊢
    exact hg ch hc hch

/-! ## The stream -/

structure MessageOk (p : Params) (log : List Record) (before : List StreamFrame) (ch : GoStr) (tp : TopicPartition) (o : Int) :
    Prop where
  channel : ch ∈ p.channels
  record : ∃ r ∈ log, channelOf r = some ch ∧ r.topicPartition = tp ∧ r.offset = o
  whole : ∀ r ∈ owing p log ch tp.2 o, Carried before ch r ∨ Covered before ch

structure FrameOk (p : Params) (log : List Record) (before : List StreamFrame) (f : StreamFrame) : Prop where
  reads : Reads f
  message : ∀ ch tp o, f.message = some (ch, tp, o) → MessageOk p log before ch tp o

section
variable {before before' : List StreamFrame} {ch : GoStr} {tp : TopicPartition} {o : Int}

theorem MessageOk.mono (h : MessageOk p log before ch tp o)
    (hs : ∀ f ∈ before, ∃ f' ∈ before', f'.message = f.message ∧ f'.covers = f.covers) : MessageOk p log before' ch tp o where
  channel := h.channel
  record := h.record
  whole r hr := by
    rcases h.whole r hr with ⟨f, hf, hms⟩ | ⟨f, hf, hcv⟩
    · obtain ⟨f', hf', hm, -⟩ := hs f hf
      exact .inl ⟨f', hf', hm.trans hms⟩
    · obtain ⟨f', hf', -, hc⟩ := hs f hf
      exact .inr ⟨f', hf', by rw [hc]; exact hcv⟩

theorem MessageOk.produce (h : MessageOk p log before ch tp o) (hl : LogInv p (log ++ [r₀])) :
    MessageOk p (log ++ [r₀]) before ch tp o where
  channel := h.channel
  record := by
    obtain ⟨r, hr, hrs⟩ := h.record
    exact ⟨r, mem_append_left _ hr, hrs⟩
  whole r hr := by
    obtain ⟨base, hb, hm, hc, hp, hlw, hlt⟩ := mem_owing.1 hr
    rcases mem_append.1 hm with hm | hm
    · exact h.whole r (mem_owing.2 ⟨base, hb, hm, hc, hp, hlw, hlt⟩)
    · rw [mem_singleton.1 hm] at hc hp hlt
      obtain ⟨r', hr', hc', htp, ho⟩ := h.record
      have hs := hl.same_partition h.channel (mem_append_left _ hr') (mem_append_right _ (by simp)) hc' hc
        (by rw [hp, ← htp]; rfl)
      have ha := (pairwise_append.1 hl.ordered).2.2 r' hr' r₀ (by simp) hs
      omega

theorem FrameOk.produce (h : FrameOk p log before f) (hl : LogInv p (log ++ [r₀])) : FrameOk p (log ++ [r₀]) before f where
  reads := h.reads
  message ch tp o hm := (h.message ch tp o hm).produce hl

end

theorem frameOk_gap (before : List StreamFrame) (g : GapNotification) : FrameOk p log before (.gap g) where
  reads := reads_gap g
  message _ _ _ hm := by cases hm

theorem frameOk_control (before : List StreamFrame) (c : Control) : FrameOk p log before (.control c) where
  reads := reads_control c
  message _ _ _ hm := by cases hm

/-! ## The replay -/

structure PendingOk (p : Params) (log : List Record) (stream : List StreamFrame) (before : List ReplayMessage)
    (m : ReplayMessage) : Prop where
  pos : m.pos = encodePos m.partition m.offset
  message : MessageOk p log (stream ++ before.map (StreamFrame.replayed · 0 0)) m.subject (m.topic, m.partition) m.offset

theorem PendingOk.stream {stream stream' : List StreamFrame} {before : List ReplayMessage}
    (h : PendingOk p log stream before m) (hs : ∀ f ∈ stream, f ∈ stream') : PendingOk p log stream' before m where
  pos := h.pos
  message := h.message.mono fun f hf => by
    rcases List.mem_append.1 hf with hf | hf
    · exact ⟨f, List.mem_append_left _ (hs f hf), rfl, rfl⟩
    · exact ⟨f, List.mem_append_right _ hf, rfl, rfl⟩

theorem PendingOk.forwarded {stream : List StreamFrame} {before : List ReplayMessage} {m₀ : ReplayMessage} {seq ts : Nat}
    (h : PendingOk p log stream (m₀ :: before) m) : PendingOk p log (stream ++ [.replayed m₀ seq ts]) before m where
  pos := h.pos
  message := h.message.mono fun f hf => by
    rcases List.mem_append.1 hf with hf | hf
    · exact ⟨f, by simp [hf], rfl, rfl⟩
    · rcases List.mem_cons.1 hf with rfl | hf
      · exact ⟨.replayed m₀ seq ts, by simp, rfl, rfl⟩
      · exact ⟨f, List.mem_append_right _ hf, rfl, rfl⟩

/-- **The replay leaves nothing out**: each message comes after everything of its channel since the inbound cursor. -/
theorem pending_of_replay (hlg : LogInv p log) (hp : order.Perm p.lastPos)
    (hdl : Delivered (inp.request (cursorOf p order)) log) {messages : List ReplayMessage}
    (hre : p.backend.replay inp p.cfg.maxReplayMessages (cursorOf p order) = some messages) (stream : List StreamFrame) :
    Justified (PendingOk p log stream) messages := by
  rcases replay_eq_some hre with ⟨-, rfl⟩ | heq
  · exact justified_nil
  intro before m after hs
  obtain ⟨r₀, hr₀, hrm⟩ := record_of_replay hre (m := m) (by simp [hs])
  obtain ⟨hms, hh, hrs⟩ := replayMessage_eq_some hrm
  have ha := (Kafka.replayMessage_some hrm).2.2
  obtain ⟨e, he, htp⟩ := mem_map.1 (hdl.1 r₀ hr₀)
  have hl : r₀ ∈ log := by
    have hin := (hdl.2 e he).subset (mem_filter.2 ⟨hr₀, decide_eq_true htp.symm⟩)
    exact (mem_filter.1 (mem_filter.1 hin).1).1
  obtain ⟨pos', topic, partition', offset', start, hin, hd, ht, hlk, hle⟩ := position_le ha
  have hch : m.subject ∈ p.channels := lastPos_channel (hp.mem_iff.1 hin)
  refine ⟨by rw [hms]; rfl, hch, ⟨r₀, hl, hh, by rw [hms]; rfl, by rw [hms]; rfl⟩, fun r hr => .inl ?_⟩
  -- a record that is owed comes earlier in the replay
  obtain ⟨base, hb, hrl, hrc, hrp, hlw, hlt⟩ := mem_owing.1 hr
  obtain ⟨pos, hps, hdc⟩ := baseline_eq_some hb
  rw [pos_unique (hp.mem_iff.1 hin) hps, hdc] at hd
  cases hd
  have hm₀ : (m.topic, m.partition) = r₀.topicPartition := (Kafka.replayMessage_some hrm).1
  have hsm : r.topicPartition = (m.topic, m.partition) :=
    (hlg.same_partition hch hrl hl hrc hh (hrp.trans (congrArg Prod.snd hm₀))).trans hm₀.symm
  have htc : topic = m.topic := by
    rw [hlg.routed r₀ hl _ hch hh] at ht
    exact (Option.some.inj ht).symm.trans (congrArg Prod.fst hm₀).symm
  rw [htc] at hlk
  have hst : start ≤ offset' + 1 := hle.trans (wrapInt64_le (by have := decodePos_nonneg hdc; omega))
  obtain ⟨-, tenant, htn⟩ := channelTopic_some ht
  have hm : Kafka.replayMessage inp.tenantResolver (cursorOf p order).authorized r = some (messageOf m.subject r) := by
    have hto : r.topic = m.topic := congrArg Prod.fst hsm
    refine replayMessage_of_header hrc ha htn ?_
    rw [← htn, ← hrs, hto]
  have her : messageOf m.subject r ∈ before := by
    refine Kafka.earlier_of_replayed (hlg.delivers hdl) (by rw [heq]; exact hs) (mem_of_lookup hlk) ?_
    refine mem_filterMap.2 ⟨r, mem_filter.2 ⟨?_, decide_eq_true ⟨by omega, hlt⟩⟩, hm⟩
    exact mem_filter.2 ⟨hrl, decide_eq_true hsm⟩
  exact ⟨.replayed (messageOf m.subject r) 0 0, mem_append_right _ (mem_map_of_mem her), rfl⟩

/-! ## The server's side -/

structure StreamInv (p : Params) (s : State) : Prop where
  log : LogInv p s.log
  frames : Justified (FrameOk p s.log) s.stream
  pending : ∀ rest authorized total replayed failed, s.phase = .forwarding rest authorized total replayed failed →
    Justified (PendingOk p s.log s.stream) rest

variable {s s' : State}

theorem streamInv_init (p : Params) : StreamInv p (init p) where
  log := ⟨.nil, by simp [init], by simp [init]⟩
  frames := justified_nil
  pending _ _ _ _ _ h := by cases h

theorem stream_push (s : State) (f : StreamFrame) : (s.push f).stream = s.stream ++ [f] := by
  simp [State.push, State.stream]

theorem stream_phase (s : State) (ph : Phase) : { s with phase := ph }.stream = s.stream := rfl

section
variable (h : StreamInv p s)
include h

theorem StreamInv.same (hl : s'.log = s.log) (hs : s'.stream = s.stream)
    (hph : s'.phase = s.phase ∨ ∃ cs, s'.phase = .verdict cs) : StreamInv p s' where
  log := hl ▸ h.log
  frames := by
    rw [hl, hs]
    exact h.frames
  pending rest authorized total replayed failed hp := by
    rw [hl, hs]
    rcases hph with hph | ⟨cs, hph⟩
    · exact h.pending rest authorized total replayed failed (hph ▸ hp)
    · rw [hph] at hp
      cases hp

theorem StreamInv.queue (hf : FrameOk p s.log s.stream f) (hl : s'.log = s.log)
    (hs : s'.stream = s.stream ++ [f]) (hph : s'.phase = s.phase ∨ ∃ cs, s'.phase = .verdict cs) : StreamInv p s' where
  log := hl ▸ h.log
  frames := by
    rw [hl, hs]
    exact justified_concat.2 ⟨h.frames, hf⟩
  pending rest authorized total replayed failed hp := by
    rw [hl, hs]
    rcases hph with hph | ⟨cs, hph⟩
    · refine (h.pending rest authorized total replayed failed (hph ▸ hp)).mono fun before m _ hm => ?_
      exact hm.stream fun f hf => mem_append_left _ hf
    · rw [hph] at hp
      cases hp

theorem StreamInv.produce (hl : LogInv p (s.log ++ [r])) : StreamInv p { s with log := s.log ++ [r] } where
  log := hl
  frames := h.frames.mono fun _ _ _ hf => hf.produce hl
  pending rest authorized total replayed failed hp :=
    (h.pending rest authorized total replayed failed hp).mono fun _ _ _ hm => ⟨hm.pos, hm.message.produce hl⟩

theorem StreamInv.broadcast {ch : GoStr} (hr : r ∈ s.log) (hch : ch ∈ p.channels)
    (hc : channelOf r = some ch) (ts : Nat) (hg : Good p s (.broadcast r ts)) : StreamInv p (broadcast p s ch r ts) := by
  unfold SseStream.broadcast
  dsimp only
  split
  · rename_i hrm
    obtain ⟨hp, ho⟩ := hg hrm
    refine h.queue ⟨reads_live (p.decoded ch hch) hp _ _, fun ch' tp o hm => ?_⟩ rfl (stream_push _ _) (.inl rfl)
    cases hm
    exact ⟨hch, ⟨r, hr, hc, rfl, rfl⟩, ho ch hc⟩
  · unfold drop
    split <;> exact h.same rfl rfl (.inl rfl)

theorem StreamInv.startRecovery (hs : startRecovery p s order inp = some s') : StreamInv p s' := by
  unfold SseStream.startRecovery at hs
  dsimp only at hs
  split at hs
  · cases hs
    exact h.same rfl rfl (.inr ⟨_, rfl⟩)
  split at hs
  · cases hs
  rename_i he
  obtain ⟨hpr, hd⟩ := not_not.1 he
  split at hs
  · cases hs
    exact h.same rfl rfl (.inr ⟨_, rfl⟩)
  split at hs
  · cases hs
    exact h.same rfl rfl (.inr ⟨_, rfl⟩)
  · rename_i messages hr
    cases hs
    refine ⟨h.log, h.frames, fun rest authorized total replayed failed hp => ?_⟩
    cases hp
    exact pending_of_replay h.log hpr hd hr _

theorem StreamInv.forwardOne {rest : List ReplayMessage} {authorized : List GoStr} {total replayed : Nat}
    {failed : Bool} (hph : s.phase = .forwarding (m :: rest) authorized total replayed failed)
    (hpr : (parse m.data).isSome = true) (ts : Nat) :
    StreamInv p (forwardOne p s m rest authorized total replayed failed ts) := by
  have hpn := justified_cons.1 (h.pending _ _ _ _ _ hph)
  have hh : MessageOk p s.log s.stream m.subject (m.topic, m.partition) m.offset := by
    have hm := hpn.1.message
    rwa [map_nil, append_nil] at hm
  unfold SseStream.forwardOne
  dsimp only
  split
  · rename_i hn
    rw [Option.isNone_iff_eq_none.1 hn] at hpr
    cases hpr
  split
  · have hf : FrameOk p s.log s.stream (.replayed m (s.seq + 1) ts) := by
      refine ⟨reads_replayed (p.decoded _ hh.channel) hpn.1.pos _ _, fun ch tp o hm => ?_⟩
      cases hm
      exact hh
    refine ⟨h.log, ?_, fun rest' authorized' total' replayed' failed' hp => ?_⟩
    · rw [stream_phase, stream_push]
      exact justified_concat.2 ⟨h.frames, hf⟩
    · cases hp
      rw [stream_phase, stream_push]
      exact hpn.2.mono fun before m' _ hm => hm.forwarded
  · exact h.same rfl rfl (.inr ⟨_, rfl⟩)

theorem StreamInv.pumpGap (g : GapNotification) (gaps : List GapNotification) (room : Bool) :
    StreamInv p (pumpGap p s g gaps room) := by
  unfold SseStream.pumpGap
  dsimp only
  generalize (coalesceGapNotifications g gaps).2.2 ++ _ = queue
  split
  · exact h.queue (frameOk_gap _ _) rfl (stream_push _ _) (.inl rfl)
  · exact h.same rfl rfl (.inl rfl)

theorem StreamInv.write (l : Loop × Option GoStr) {wire : List StreamFrame} {frame : Option StreamFrame}
    (hw : s.wire = frame.toList ++ wire) (ok : Bool) : StreamInv p (s.write l wire frame ok) := by
  unfold State.write
  split
  · refine h.same rfl ?_ (.inl rfl)
    cases frame with
    | none | some f => simp [State.stream, SseStream.frames, hw]
  · exact h.same rfl rfl (.inl rfl)

theorem StreamInv.step (hg : Good p s a) (hs : step p s a = some s') : StreamInv p s' := by
  cases step_moves hs with
  | produce r hn hnw => exact h.produce (h.log.produce hn hnw hg)
  | broadcast r ts ch hr hch hc => exact h.broadcast hr hch hc ts hg
  | recover order inp s' hs => exact h.startRecovery hs
  | forward ts m rest authorized total replayed failed hp =>
    simp only [Good, hp, Phase.serializes] at hg
    exact h.forwardOne hp hg ts
  | finish expired cs | abandon cs => exact h.same rfl rfl (.inr ⟨cs, rfl⟩)
  | control c cs =>
    refine h.queue (frameOk_control _ c) rfl ?_ (.inr ⟨cs, rfl⟩)
    rw [stream_phase, stream_push]
  | hangUp => exact h.same rfl rfl (.inl rfl)
  | pump f send hsn =>
    refine h.same rfl ?_ (.inl rfl)
    simp [State.stream, hsn]
  | pumpGap room g gaps => exact h.pumpGap g gaps room
  | deliver ok f wire hw => exact h.write _ hw ok
  | tick ok => exact h.write _ rfl ok

end

/-! ## The event loop's side -/

def FromStream (p : Params) (fs : List StreamFrame) (e : GoStr × GoStr) : Prop :=
  e ∈ p.lastPos ∨ ∃ f ∈ fs, ∃ tp o, f.message = some (e.1, tp, o) ∧ e.2 = encodePos tp.2 o

structure LoopInv (p : Params) (l : Loop) (events : List Event) : Prop where
  utf8 : Utf8Map l.cursor
  cursor : ∀ e ∈ l.cursor, FromStream p (frames events) e
  emitted : Justified (fun before e => ∀ token ∈ e.id, ∀ cursor ∈ decodeSSECursor token, ∀ entry ∈ cursor,
    FromStream p (frames (before ++ [e])) entry) events

theorem loopInv_init (p : Params) : LoopInv p (init p).loop (init p).events where
  utf8 := utf8_lastPos p
  cursor _ he := .inl he
  emitted := justified_nil

theorem FromStream.mono {fs fs' : List StreamFrame} {e : GoStr × GoStr} (h : FromStream p fs e) (hs : fs ⊆ fs') :
    FromStream p fs' e := by
  refine h.imp_right ?_
  rintro ⟨f, hf, hr⟩
  exact ⟨f, hs hf, hr⟩

theorem emit_spec (l : Loop) : l.emit.1.cursor = l.cursor ∧
    ∀ token ∈ l.emit.2, token = encodeSSECursor l.cursor ∧ l.cursor ≠ [] := by
  unfold Loop.emit
  dsimp only
  split
  · exact ⟨rfl, by simp⟩
  · rename_i hne
    refine ⟨rfl, fun token ht => ⟨(Option.some.inj ht).symm, fun hn => hne ?_⟩⟩
    rw [hn]
    rfl

theorem message_spec (everyN : Int) (l : Loop) (payload : GoStr) :
    (l.message everyN payload).1.cursor = (l.advance payload).cursor ∧ ∀ token ∈ (l.message everyN payload).2,
      token = encodeSSECursor (l.advance payload).cursor ∧ (l.advance payload).cursor ≠ [] := by
  unfold Loop.message
  dsimp only
  split
  · exact emit_spec _
  · exact ⟨rfl, by simp⟩

theorem tick_spec (l : Loop) : l.tick.1.cursor = l.cursor ∧
    ∀ token ∈ l.tick.2, token = encodeSSECursor l.cursor ∧ l.cursor ≠ [] := by
  unfold Loop.tick
  split
  · exact emit_spec l
  · exact ⟨rfl, by simp⟩

theorem LoopInv.write {l' : Loop} (h : LoopInv p l events) (hu : Utf8Map l'.cursor)
    (hcr : ∀ entry ∈ l'.cursor, FromStream p (frames (events ++ [e])) entry)
    (hid : ∀ token ∈ e.id, token = encodeSSECursor l'.cursor ∧ l'.cursor ≠ []) : LoopInv p l' (events ++ [e]) where
  utf8 := hu
  cursor := hcr
  emitted := by
    refine justified_concat.2 ⟨h.emitted, fun token ht cursor hc entry he => hcr entry ?_⟩
    obtain ⟨rfl, hne⟩ := hid token ht
    obtain ⟨m', hd, hp⟩ := decodeSSECursor_encode hne hu
    rw [hd] at hc
    cases hc
    exact hp.mem_iff.1 he

theorem frames_concat_subset (events : List Event) (e : Event) : frames events ⊆ frames (events ++ [e]) := by
  rw [frames, frames, filterMap_append]
  exact subset_append_left _ _

theorem LoopInv.deliver (h : LoopInv p l events) (hrd : Reads f) (everyN : Int) :
    LoopInv p (l.message everyN f.payload).1 (events ++ [⟨(l.message everyN f.payload).2, some f⟩]) := by
  obtain ⟨hc, hid⟩ := message_spec everyN l f.payload
  have hold : ∀ (id : Option GoStr) entry, entry ∈ l.cursor → FromStream p (frames (events ++ [⟨id, some f⟩])) entry :=
    fun id entry he => (h.cursor entry he).mono (frames_concat_subset events _)
  have ha : Utf8Map (l.advance f.payload).cursor ∧ ∀ (id : Option GoStr), ∀ entry ∈ (l.advance f.payload).cursor,
      FromStream p (frames (events ++ [⟨id, some f⟩])) entry := by
    unfold Loop.advance
    rcases hrd with hn | ⟨ch, tp, o, hm, hr⟩
    · rw [hn]
      exact ⟨h.utf8, hold⟩
    · rw [hr]
      obtain ⟨hdc, hd⟩ := sseMsgPos_decoded hr
      refine ⟨h.utf8.insert hdc hd, fun id entry he => ?_⟩
      rcases mem_insert.1 he with ⟨he, -⟩ | rfl
      · exact hold id entry he
      · exact .inr ⟨f, by simp [frames], tp, o, hm, rfl⟩
  refine h.write (hc ▸ ha.1) ?_ (by rw [hc]; exact hid)
  rw [hc]
  exact ha.2 _

theorem LoopInv.tick (h : LoopInv p l events) : LoopInv p l.tick.1 (events ++ [⟨l.tick.2, none⟩]) := by
  obtain ⟨hc, hid⟩ := tick_spec l
  refine h.write (hc ▸ h.utf8) ?_ (by rw [hc]; exact hid)
  rw [hc]
  exact fun entry he => (h.cursor entry he).mono (frames_concat_subset events _)

theorem broadcast_loop (p : Params) (s : State) (ch : GoStr) (r : Record) (ts : Nat) :
    (broadcast p s ch r ts).loop = s.loop ∧ (broadcast p s ch r ts).events = s.events := by
  unfold broadcast drop
  dsimp only
  split
  · exact ⟨rfl, rfl⟩
  · split <;> exact ⟨rfl, rfl⟩

theorem startRecovery_loop (hs : startRecovery p s order inp = some s') : s'.loop = s.loop ∧ s'.events = s.events := by
  unfold startRecovery at hs
  dsimp only at hs
  split at hs
  · cases hs
    exact ⟨rfl, rfl⟩
  split at hs
  · cases hs
  split at hs
  · cases hs
    exact ⟨rfl, rfl⟩
  split at hs <;> cases hs <;> exact ⟨rfl, rfl⟩

theorem forwardOne_loop (p : Params) (s : State) (m : ReplayMessage) (rest : List ReplayMessage) (authorized : List GoStr)
    (total replayed : Nat) (failed : Bool) (ts : Nat) :
    (forwardOne p s m rest authorized total replayed failed ts).loop = s.loop ∧
      (forwardOne p s m rest authorized total replayed failed ts).events = s.events := by
  unfold forwardOne
  dsimp only
  split
  · exact ⟨rfl, rfl⟩
  · split <;> exact ⟨rfl, rfl⟩

theorem pumpGap_loop (p : Params) (s : State) (g : GapNotification) (gaps : List GapNotification) (room : Bool) :
    (pumpGap p s g gaps room).loop = s.loop ∧ (pumpGap p s g gaps room).events = s.events := by
  unfold pumpGap
  dsimp only
  generalize (coalesceGapNotifications g gaps).2.2 ++ _ = queue
  split <;> exact ⟨rfl, rfl⟩

theorem LoopInv.same (h : LoopInv p s.loop s.events) (heq : s'.loop = s.loop ∧ s'.events = s.events) :
    LoopInv p s'.loop s'.events := by
  rw [heq.1, heq.2]
  exact h

theorem LoopInv.step (h : LoopInv p s.loop s.events) (hr : ∀ f ∈ s.wire, Reads f) (hs : step p s a = some s') :
    LoopInv p s'.loop s'.events := by
  cases step_moves hs with
  | produce | finish | control | abandon | hangUp | pump => exact h
  | broadcast r ts ch => exact h.same (broadcast_loop p s ch r ts)
  | recover order inp s' hs => exact h.same (startRecovery_loop hs)
  | forward ts m rest authorized total replayed failed =>
    exact h.same (forwardOne_loop p s m rest authorized total replayed failed ts)
  | pumpGap room g gaps => exact h.same (pumpGap_loop p s g gaps room)
  | deliver ok f wire hw =>
    unfold State.write
    split
    · exact h.deliver (hr f (by simp [hw])) p.everyN
    · exact h
  | tick ok =>
    unfold State.write
    split
    · exact h.tick
    · exact h

/-! ## The theorem -/

structure Inv (p : Params) (s : State) : Prop where
  stream : StreamInv p s
  loop : LoopInv p s.loop s.events

theorem Inv.step (h : Inv p s) (hg : Good p s a) (hs : step p s a = some s') : Inv p s' where
  stream := h.stream.step hg hs
  loop := h.loop.step (fun f hf => by
    obtain ⟨before, hok⟩ := h.stream.frames.exists_of_mem (a := f) (by simp [State.stream, hf])
    exact hok.reads) hs

theorem before_last {before : List Event} {fs gs : List StreamFrame} (h : frames (before ++ [e]) = fs ++ f :: gs) :
    fs ⊆ frames before := by
  rw [frames, filterMap_append, ← frames] at h
  cases hf : e.frame with
  | none =>
    rw [filterMap_cons_none hf, filterMap_nil, append_nil] at h
    rw [h]
    exact subset_append_left _ _
  | some g =>
    rw [filterMap_cons_some hf, filterMap_nil] at h
    rcases eq_nil_or_concat gs with rfl | ⟨gs', g', rfl⟩
    · rw [append_inj_left' h rfl]
      exact fun _ hx => hx
    · have hc : frames before ++ [g] = (fs ++ f :: gs') ++ [g'] := by simpa using h
      rw [append_inj_left' hc rfl]
      exact subset_append_left _ _

theorem Inv.neverAhead (h : Inv p s) : NeverAhead p s := by
  intro before e after he token ht cursor hcr entry hen pos hpo r hr
  obtain ⟨base, hb, hlg, hc, hpr, hlw, hlt⟩ := mem_owing.1 hr
  rcases h.loop.emitted before e after he token ht cursor hcr entry hen with hin | ⟨f, hf, tp, o, hm, hps⟩
  · -- an inbound position is its own baseline
    obtain ⟨pos₀, hi, hd⟩ := baseline_eq_some hb
    rw [← pos_unique hin hi, hpo] at hd
    have heq := congrArg Prod.snd (Option.some.inj hd)
    dsimp only at heq
    omega
  · obtain ⟨fs, gs, hs⟩ := append_of_mem hf
    have hst : s.stream = fs ++ f :: (gs ++ frames after ++ s.wire ++ s.send) := by
      have hev : s.events = (before ++ [e]) ++ after := by simp [he]
      rw [State.stream, hev, frames, filterMap_append, ← frames, ← frames, hs]
      simp
    have hok := (h.stream.frames fs f _ hst).message entry.1 tp o hm
    obtain ⟨r₀, hr₀, hc₀, htp, ho⟩ := hok.record
    obtain ⟨hnt, hn⟩ := h.stream.log.natural r₀ hr₀
    have hp : r₀.partition = tp.2 := congrArg Prod.snd htp
    rw [hps] at hpo
    have hq := decodePos_encodePos (hp ▸ hnt) (ho ▸ hn) hpo
    rw [hq] at hpr hlt hb
    by_cases hl : r.offset = o
    · -- the message of the id itself
      have hsm := h.stream.log.same_partition hok.channel hlg hr₀ hc hc₀ (hpr.trans hp.symm)
      exact .inl ⟨f, hf, by rw [hm, hsm, htp, hl]⟩
    · rcases hok.whole r (mem_owing.2 ⟨base, hb, hlg, hc, hpr, hlw, by dsimp only at hlt; omega⟩) with
        ⟨g, hg, hgm⟩ | ⟨g, hg, hgc⟩
      · exact .inl ⟨g, by rw [hs]; exact mem_append_left _ hg, hgm⟩
      · exact .inr ⟨g, before_last hs hg, hgc⟩

end

/-- **The cursor is never ahead of delivery as long as no live message overtakes** (`Good`). -/
theorem cursor_never_ahead (p : Params) (as : List Act) (s : State) (hok : Steps.Along (step p) (Good p) (init p) as)
    (hrun : Steps.run (step p) (init p) as = some s) : NeverAhead p s := by
  have hinit : Inv p (init p) := ⟨streamInv_init p, loopInv_init p⟩
  exact (Steps.run_invariant_along (Inv p) (fun s a s' h hg hs => h.step hg hs) hinit hok hrun).neverAhead

def newsStream : Params where
  cfg := newsServer
  backend := newsBackend
  client := newsClient
  sendBuffer := 8
  gapBuffer := 8
  everyN := 10
  channels := [str "acme.news"]
  decoded := fun ch hch => ⟨"acme.news".toList, by rw [List.mem_singleton.1 hch]; decide⟩
  lastEventID := str "v1:eyJhY21lLm5ld3MiOiIxLTUifQ"

structure Written where
  log : List Record
  events : List Event
deriving DecidableEq

def written (as : List Act) : Option Written :=
  (Steps.run (step newsStream) (init newsStream) as).map fun s => ⟨s.log, s.events⟩

def replayRun : List Act :=
  [.produce (newsMessage 6), .produce (newsMessage 7),
   .recover [(str "acme.news", str "1-5")] (newsRecovery Kafka.acmeResolver), .forward 0, .forward 0, .finish false, .control,
   .pump, .deliver true]

theorem written_replayRun : (written replayRun).map (fun w => w.events.map (·.id)) =
    some [some (str "v1:eyJhY21lLm5ld3MiOiIxLTYifQ")] := by decide +kernel

theorem cursor_never_ahead_replayRun : ∃ s, Steps.run (step newsStream) (init newsStream) replayRun = some s ∧
    s.events.map (·.id) = [some (str "v1:eyJhY21lLm5ld3MiOiIxLTYifQ")] ∧ NeverAhead newsStream s := by
  obtain ⟨w, hw, hids⟩ := Option.map_eq_some_iff.1 written_replayRun
  obtain ⟨s, hrun, rfl⟩ := Option.map_eq_some_iff.1 hw
  exact ⟨s, hrun, hids, cursor_never_ahead newsStream replayRun s (by decide +kernel) hrun⟩

def liveRun : List Act :=
  [.produce (newsMessage 6), .produce (newsMessage 7), .broadcast (newsMessage 7) 0, .pump, .deliver true]

def overtaking : Event := ⟨some (str "v1:eyJhY21lLm5ld3MiOiIxLTcifQ"), some (.live (str "acme.news") (newsMessage 7) 1 0)⟩

theorem written_liveRun : written liveRun = some ⟨[newsMessage 6, newsMessage 7], [overtaking]⟩ := by decide +kernel

theorem overtaking_spec : decodeSSECursor (str "v1:eyJhY21lLm5ld3MiOiIxLTcifQ") = some [(str "acme.news", str "1-7")] ∧
    decodePos (str "1-7") = some (0, 7) ∧
    newsMessage 6 ∈ owing newsStream [newsMessage 6, newsMessage 7] (str "acme.news") 0 (7 + 1) ∧
    ¬ Carried (frames [overtaking]) (str "acme.news") (newsMessage 6) := by decide +kernel

/-- **Bug**: offset 7 is broadcast and delivered before the replay reads 6. If the connection breaks now, the next one resumes
after 7, and 6 is lost without a notice. -/
theorem live_overtakes_replay : ∃ s, Steps.run (step newsStream) (init newsStream) liveRun = some s ∧
    ¬ NeverAhead newsStream s := by
  obtain ⟨s, hrun, hs⟩ := Option.map_eq_some_iff.1 written_liveRun
  have hlog : s.log = [newsMessage 6, newsMessage 7] := congrArg Written.log hs
  have hevents : s.events = [overtaking] := congrArg Written.events hs
  obtain ⟨hcursor, hpos, howing, hmissing⟩ := overtaking_spec
  refine ⟨s, hrun, fun h => ?_⟩
  have hjust := h [] overtaking [] hevents _ rfl _ hcursor (str "acme.news", str "1-7") (mem_singleton.2 rfl) (0, 7) hpos
    (newsMessage 6) (by rw [hlog]; exact howing)
  rcases hjust with hcarried | ⟨f, hf, -⟩
  · exact hmissing hcarried
  · cases hf

end Sukko.Gateway.SseStream
