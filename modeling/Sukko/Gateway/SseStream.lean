import Sukko.Gateway.SseCursor
import Sukko.Lib.Justified
import Sukko.Lib.Steps
import Sukko.Server.StreamFrames
/-
# One SSE stream, from the log to the event ids

The client is registered for live delivery before the replay, so its queue merges two ordered streams.

**gRPC boundary**: a stream delivers its frames in order; the channels of a request are UTF-8 (`Params.decoded`).
-/

namespace Sukko.Gateway.SseStream
open GoStr Json Protocol Server List Option
open Kafka (TopicPartition Record ReplayMessage ReplayRequest Delivers findHeader headerChannel encodePos)

/-! ## The event loop -/

structure Loop where
  cursor : StrMap
  sinceCursor : Nat
  cursorDirty : Bool
  cursorSent : Bool
deriving DecidableEq

def Loop.emit (l : Loop) : Loop × Option GoStr :=
  let tok := encodeSSECursor l.cursor
  if tok = [] then (l, none) else ({ l with sinceCursor := 0, cursorDirty := false, cursorSent := true }, some tok)

def Loop.advance (l : Loop) (payload : GoStr) : Loop :=
  match sseMsgPos payload with
  | some (ch, pos) => { l with cursor := l.cursor.insert ch pos, cursorDirty := true, sinceCursor := l.sinceCursor + 1 }
  | none => { l with sinceCursor := l.sinceCursor + 1 }

def Loop.message (everyN : Int) (l : Loop) (payload : GoStr) : Loop × Option GoStr :=
  let l := l.advance payload
  if l.cursorDirty && (!l.cursorSent || (0 < everyN && everyN ≤ l.sinceCursor)) then l.emit else (l, none)

def Loop.tick (l : Loop) : Loop × Option GoStr := if l.cursorDirty then l.emit else (l, none)

/-! ## The system -/

structure Params where
  cfg : Server.Config
  backend : Backend
  client : Session
  sendBuffer : Nat
  gapBuffer : Nat
  everyN : Int
  channels : List GoStr
  decoded : ∀ ch ∈ channels, Decoded ch
  lastEventID : GoStr

def Params.lastPos (p : Params) : StrMap :=
  match decodeSSECursor p.lastEventID with
  | some cursor => intersectCursorChannels cursor p.channels
  | none => []

inductive Phase
  | registered
  | forwarding (rest : List ReplayMessage) (authorized : List GoStr) (total replayed : Nat) (serializeFailed : Bool)
  | verdict (frames : List Control)
deriving DecidableEq

structure Event where
  id : Option GoStr
  frame : Option StreamFrame
deriving DecidableEq

structure State where
  log : List Record
  seq : Nat
  send : List StreamFrame
  gaps : List GapNotification
  phase : Phase
  ended : Bool
  wire : List StreamFrame
  loop : Loop
  events : List Event
  running : Bool

/-- The cursor starts as a copy of the inbound one (`seedCursor`, `gateway/sse_cursor.go:103`). -/
def init (p : Params) : State := ⟨[], 0, [], [], .registered, false, [], ⟨p.lastPos, 0, false, false⟩, [], true⟩

inductive Act
  | produce (r : Record)
  | broadcast (r : Record) (ts : Nat)
  | recover (order : StrMap) (inp : RecoveryInput)
  | forward (ts : Nat)
  | finish (expired : Bool)
  | control
  | abandon
  | hangUp
  | pump
  | pumpGap (room : Bool)
  | deliver (ok : Bool)
  | tick (ok : Bool)

def channelOf (r : Record) : Option GoStr := findHeader r.headers headerChannel

/-- `extractChannel` (`server/broadcast.go:21`). -/
def broadcastChannel (subject : GoStr) : GoStr :=
  let parts := split dot subject
  if parts.length < 2 ∨ [] ∈ parts then [] else subject

def partitionLog (log : List Record) (tp : TopicPartition) : List Record := log.filter (·.topicPartition = tp)

def Delivered (q : ReplayRequest) (log : List Record) : Prop :=
  (∀ r ∈ q.records, r.topicPartition ∈ q.positions.map Prod.fst) ∧
    ∀ e ∈ q.positions, q.records.filter (·.topicPartition = e.1) <+: (partitionLog log e.1).filter (e.2 ≤ ·.offset)

instance (q : ReplayRequest) (log : List Record) : Decidable (Delivered q log) := inferInstanceAs (Decidable (_ ∧ _))

section
variable (p : Params)

def hasRoom (s : State) : Bool := s.send.length < p.sendBuffer
def State.push (s : State) (f : StreamFrame) : State := { s with send := s.send ++ [f] }

def drop (s : State) (g : GapNotification) : State :=
  if s.gaps.length < p.gapBuffer then { s with gaps := s.gaps ++ [g] } else s

/-- See `server/broadcast.go:65`. -/
def broadcast (s : State) (ch : GoStr) (r : Record) (ts : Nat) : State :=
  let s := { s with seq := s.seq + 1 }
  if hasRoom p s then s.push (.live ch r s.seq ts) else drop p s ⟨ch, s.seq, s.seq, encodePos r.partition r.offset, ts⟩

def cursorOf (order : StrMap) : Cursor :=
  recoveryCursor p.cfg p.backend p.client ⟨p.channels, order, p.lastEventID ≠ []⟩

/-- Part of `Subscribe` (`server/grpc_service.go:123`). -/
def startRecovery (s : State) (order : StrMap) (inp : RecoveryInput) : Option State :=
  let cursor := cursorOf p order
  if p.lastEventID = [] ∧ p.lastPos = [] then some { s with phase := .verdict [] }
  else if ¬ (order.Perm p.lastPos ∧ Delivered (inp.request cursor) s.log) then none
  else if cursor.positions = [] then
    some { s with phase := .verdict (controlFrames p.channels cursor.authorized 0 false false) }
  else
    match p.backend.replay inp p.cfg.maxReplayMessages cursor with
    | none => some { s with phase := .verdict (controlFrames p.channels cursor.authorized 0 false true) }
    | some messages => some { s with phase := .forwarding messages cursor.authorized messages.length 0 false }

/-- Part of `replayAuthorizedToClient` (`server/replay_shared.go:98`). -/
def forwardOne (s : State) (m : ReplayMessage) (rest : List ReplayMessage) (authorized : List GoStr) (total replayed : Nat)
    (serializeFailed : Bool) (ts : Nat) : State :=
  let s := { s with seq := s.seq + 1 }
  if (parse m.data).isNone then { s with phase := .forwarding rest authorized total replayed true }
  else if hasRoom p s then
    { s.push (.replayed m s.seq ts) with phase := .forwarding rest authorized total (replayed + 1) serializeFailed }
  else { s with phase := .verdict (controlFrames p.channels authorized replayed true false) }

def pumpGap (s : State) (g : GapNotification) (gaps : List GapNotification) (room : Bool) : State :=
  let (merged, lost, queue) := coalesceGapNotifications g gaps
  let s := { s with gaps := queue ++ if room then lost.toList else [] }
  if hasRoom p s then s.push (.gap merged) else s

def State.write (s : State) (l : Loop × Option GoStr) (wire : List StreamFrame) (frame : Option StreamFrame) (ok : Bool) :
    State :=
  if ok then { s with loop := l.1, wire := wire, events := s.events ++ [⟨l.2, frame⟩] } else { s with running := false }

def step (s : State) : Act → Option State
  | .produce r =>
    if 0 ≤ r.partition ∧ 0 ≤ r.offset ∧ ∀ r' ∈ s.log, r'.topicPartition = r.topicPartition → r'.offset < r.offset then
      some { s with log := s.log ++ [r] }
    else none
  | .broadcast r ts =>
    match channelOf r with
    | none => none
    | some ch => if r ∈ s.log ∧ ch ∈ p.channels ∧ broadcastChannel ch ≠ [] then some (broadcast p s ch r ts) else none
  | .recover order inp =>
    match s.phase with
    | .registered => startRecovery p s order inp
    | _ => none
  | .forward ts =>
    match s.phase with
    | .forwarding (m :: rest) authorized total replayed failed =>
      some (forwardOne p s m rest authorized total replayed failed ts)
    | _ => none
  | .finish expired =>
    match s.phase with
    | .forwarding [] authorized total replayed failed =>
      let truncated := decide (p.cfg.maxReplayMessages ≤ total) || expired || failed
      some { s with phase := .verdict (controlFrames p.channels authorized replayed truncated false) }
    | _ => none
  | .control =>
    match s.phase with
    | .verdict (c :: frames) => if hasRoom p s then some { s.push (.control c) with phase := .verdict frames } else none
    | _ => none
  | .abandon =>
    match s.phase with
    | .verdict (_ :: frames) => if s.ended then some { s with phase := .verdict frames } else none
    | _ => none
  | .hangUp => some { s with ended := true }
  | .pump =>
    match s.send with
    | [] => none
    | f :: send => some { s with send := send, wire := s.wire ++ [f] }
  | .pumpGap room =>
    match s.gaps with
    | [] => none
    | g :: gaps => some (pumpGap p s g gaps room)
  | .deliver ok =>
    match s.running, s.wire with
    | true, f :: wire => some (s.write (s.loop.message p.everyN f.payload) wire (some f) ok)
    | _, _ => none
  | .tick ok => if s.running then some (s.write s.loop.tick s.wire none ok) else none

end

/-- **The loop without interruption** is `Server.forward` on the room in the queue, and ends with the verdict of
`replayAuthorizedToClient`. -/
theorem forwarding_uninterrupted {p : Params} {s : State} {ms : List ReplayMessage} {authorized : List GoStr}
    {total replayed : Nat} {failed : Bool} (expired : Bool) (ts : Nat)
    (h : s.phase = .forwarding ms authorized total replayed failed) :
    ∃ as t sent, Steps.run (step p) s as = some t ∧ t.send = s.send ++ sent ∧
      Forall₂ (fun f m => ∃ seq, f = .replayed m seq ts) sent (Server.forward (p.sendBuffer - s.send.length) ms).sent ∧
      t.phase = .verdict (controlFrames p.channels authorized (replayed + sent.length)
        ((Server.forward (p.sendBuffer - s.send.length) ms).full || decide (p.cfg.maxReplayMessages ≤ total) || expired ||
          (failed || (Server.forward (p.sendBuffer - s.send.length) ms).serializeFailed)) false) := by
  induction ms generalizing s replayed failed with
  | nil =>
    refine ⟨[.finish expired], { s with phase := .verdict (controlFrames p.channels authorized replayed
      (decide (p.cfg.maxReplayMessages ≤ total) || expired || failed) false) }, [], ?_, by simp, .nil, by simp [forward]⟩
    simp [Steps.run, step, h]
  | cons m ms ih =>
    have hstep : step p s (.forward ts) = some (forwardOne p s m ms authorized total replayed failed ts) := by
      simp only [step, h]
    by_cases hm : (parse m.data).isNone
    · -- a message that does not serialize takes a number and no room
      obtain ⟨as, t, sent, hr, hsend, hsent, hv⟩ := @ih (forwardOne p s m ms authorized total replayed failed ts) replayed true
        (by simp [forwardOne, hm])
      simp only [forwardOne, if_pos hm] at hsend hsent hv
      refine ⟨.forward ts :: as, t, sent, Steps.run_cons.2 ⟨_, hstep, hr⟩, hsend, ?_, ?_⟩
      · simpa [forward, hm] using hsent
      · simpa [forward, hm] using hv
    by_cases hroom : s.send.length < p.sendBuffer
    · have hfree : p.sendBuffer - s.send.length = p.sendBuffer - (s.send.length + 1) + 1 := by omega
      obtain ⟨as, t, sent, hr, hsend, hsent, hv⟩ := @ih (forwardOne p s m ms authorized total replayed failed ts) (replayed + 1)
        failed (by simp [forwardOne, hm, hasRoom, hroom])
      simp only [forwardOne, if_neg hm, hasRoom, decide_eq_true hroom, if_true, State.push, length_append, length_singleton,
        append_assoc] at hsend hsent hv
      refine ⟨.forward ts :: as, t, _, Steps.run_cons.2 ⟨_, hstep, hr⟩, hsend, ?_, ?_⟩
      · simpa [forward, hm, hfree] using hsent
      · simpa [forward, hm, hfree, Nat.add_assoc, Nat.add_comm 1] using hv
    · have hfull : p.sendBuffer - s.send.length = 0 := by omega
      refine ⟨[.forward ts], _, [], Steps.run_cons.2 ⟨_, hstep, rfl⟩, ?_, ?_, ?_⟩ <;>
        simp [forwardOne, forward, hm, hasRoom, hroom, hfull]

inductive Moves (p : Params) (s : State) : Act → State → Prop
  | produce (r : Record) (hnat : 0 ≤ r.partition ∧ 0 ≤ r.offset)
      (hnew : ∀ r' ∈ s.log, r'.topicPartition = r.topicPartition → r'.offset < r.offset) :
      Moves p s (.produce r) { s with log := s.log ++ [r] }
  | broadcast (r : Record) (ts : Nat) (ch : GoStr) (hr : r ∈ s.log) (hch : ch ∈ p.channels) (hc : channelOf r = some ch) :
      Moves p s (.broadcast r ts) (broadcast p s ch r ts)
  | recover (order : StrMap) (inp : RecoveryInput) (s' : State) (hs : startRecovery p s order inp = some s') :
      Moves p s (.recover order inp) s'
  | forward (ts : Nat) (m : ReplayMessage) (rest : List ReplayMessage) (authorized : List GoStr) (total replayed : Nat)
      (failed : Bool) (hphase : s.phase = .forwarding (m :: rest) authorized total replayed failed) :
      Moves p s (.forward ts) (forwardOne p s m rest authorized total replayed failed ts)
  | finish (expired : Bool) (cs : List Control) : Moves p s (.finish expired) { s with phase := .verdict cs }
  | control (c : Control) (cs : List Control) : Moves p s .control { s.push (.control c) with phase := .verdict cs }
  | abandon (cs : List Control) : Moves p s .abandon { s with phase := .verdict cs }
  | hangUp : Moves p s .hangUp { s with ended := true }
  | pump (f : StreamFrame) (send : List StreamFrame) (hsend : s.send = f :: send) :
      Moves p s .pump { s with send := send, wire := s.wire ++ [f] }
  | pumpGap (room : Bool) (g : GapNotification) (gaps : List GapNotification) :
      Moves p s (.pumpGap room) (pumpGap p s g gaps room)
  | deliver (ok : Bool) (f : StreamFrame) (wire : List StreamFrame) (hwire : s.wire = f :: wire) :
      Moves p s (.deliver ok) (s.write (s.loop.message p.everyN f.payload) wire (some f) ok)
  | tick (ok : Bool) : Moves p s (.tick ok) (s.write s.loop.tick s.wire none ok)

theorem step_moves {p : Params} {s s' : State} {a : Act} (hs : step p s a = some s') : Moves p s a s' := by
  cases a with simp only [step, Steps.guarded] at hs
  | produce r =>
    obtain ⟨⟨hp, ho, hn⟩, rfl⟩ := hs
    exact .produce r ⟨hp, ho⟩ hn
  | broadcast r ts =>
    split at hs
    · cases hs
    rename_i ch hc
    simp only [Steps.guarded] at hs
    obtain ⟨⟨hr, hch, -⟩, rfl⟩ := hs
    exact .broadcast r ts ch hr hch hc
  | recover order inp =>
    split at hs
    · exact .recover order inp s' hs
    · cases hs
  | forward ts =>
    split at hs
    · rename_i hph
      cases hs
      exact .forward ts _ _ _ _ _ _ hph
    · cases hs
  | finish expired =>
    split at hs
    · cases hs
      exact .finish expired _
    · cases hs
  | control =>
    split at hs
    · simp only [Steps.guarded] at hs
      obtain ⟨-, rfl⟩ := hs
      exact .control _ _
    · cases hs
  | abandon =>
    split at hs
    · simp only [Steps.guarded] at hs
      obtain ⟨-, rfl⟩ := hs
      exact .abandon _
    · cases hs
  | hangUp =>
    cases hs
    exact .hangUp
  | pump =>
    split at hs
    · cases hs
    rename_i f send hsn
    cases hs
    exact .pump f send hsn
  | pumpGap room =>
    split at hs
    · cases hs
    · cases hs
      exact .pumpGap room _ _
  | deliver ok =>
    split at hs
    · rename_i f wire _ hw
      cases hs
      exact .deliver ok f wire hw
    · cases hs
  | tick ok =>
    obtain ⟨-, rfl⟩ := hs
    exact .tick ok

/-! ## What the event loop reads in a frame -/

def otherFields : List String := ["type", "seq", "ts", "data", "mid", "from_seq", "to_seq", "last_pos", "channels", "replayed"]

theorem findField_other : ∀ name ∈ otherFields, findField msgPosFields name.toList = none := by decide +kernel

section Fields
variable (v : Value) (ms : List (List Char × Value)) (e : MsgPos)

theorem setMembers_other (name : String) (h : name ∈ otherFields) :
    setMembers msgPosFields ((name.toList, v) :: ms) e = setMembers msgPosFields ms e := by
  rw [setMembers, setMember, findField_other name h, bind_some]

theorem setMembers_channel : setMembers msgPosFields (("channel".toList, v) :: ms) e =
    ((decodeString v e.channel).map fun s => { e with channel := s }).bind (setMembers msgPosFields ms) := rfl

theorem setMembers_pos : setMembers msgPosFields (("pos".toList, v) :: ms) e =
    ((decodeString v e.pos).map fun s => { e with pos := s }).bind (setMembers msgPosFields ms) := rfl

end Fields

theorem sseMsgPos_text {v : Value} {e : MsgPos} (h : decodeObject msgPosFields v ⟨[], []⟩ = some e) :
    sseMsgPos v.text = none ∨ e.pos ≠ [] ∧ sseMsgPos v.text = some (e.channel, e.pos) := by
  unfold sseMsgPos
  cases hu : unmarshal msgPosFields ⟨[], []⟩ v.text with
  | none => exact .inl rfl
  | some e' =>
    rw [unmarshal_text hu] at h
    cases h
    by_cases hp : e.pos = []
    · exact .inl (if_pos hp)
    · exact .inr ⟨hp, if_neg hp⟩

theorem setMembers_envelope {ch pos : GoStr} (hch : Decoded ch) (hp : Decoded pos) (ts seq : Nat) (v : Value) (mid : GoStr) :
    setMembers msgPosFields (envelopeMembers ch ts v pos mid seq) ⟨[], []⟩ = some ⟨ch, pos⟩ := by
  rw [envelopeMembers, setMembers_other _ _ _ "type" (by decide), setMembers_other _ _ _ "seq" (by decide),
    setMembers_other _ _ _ "ts" (by decide), setMembers_channel, decodeString_quote hch, map_some, bind_some,
    setMembers_other _ _ _ "data" (by decide), setMembers_pos, decodeString_quote hp, map_some, bind_some,
    setMembers_other _ _ _ "mid" (by decide)]
  rfl

theorem decoded_encodePos (partition offset : Int) : Decoded (encodePos partition offset) :=
  ⟨_, (encode_plain (encodePos_plain partition offset)).symm⟩

def Reads (f : StreamFrame) : Prop :=
  sseMsgPos f.payload = none ∨
    ∃ ch tp o, f.message = some (ch, tp, o) ∧ sseMsgPos f.payload = some (ch, encodePos tp.2 o)

variable {ch : GoStr}

theorem reads_live {r : Record} (hch : Decoded ch) (hv : (parse r.value).isSome = true) (seq ts : Nat) :
    Reads (.live ch r seq ts) := by
  obtain ⟨v, hv⟩ := isSome_iff_exists.1 hv
  obtain ⟨w, w', ht⟩ := broadcastBytes_text hv (encodePos_ne_nil r.partition r.offset)
    (encodePos_plain r.partition r.offset) (messageID_ne_nil r.topic r.partition r.offset)
    (messageID_plain r.topic r.partition r.offset) ch ts seq
  have hd : decodeObject msgPosFields (.coll .obj (liveEntries ch ts w v w' (encodePos r.partition r.offset)
      (messageID r.topic r.partition r.offset) seq)) ⟨[], []⟩ = some ⟨ch, encodePos r.partition r.offset⟩ := by
    rw [decodeObject, members_liveEntries, setMembers_envelope hch (decoded_encodePos _ _)]
  rw [Reads, StreamFrame.payload, ht]
  refine (sseMsgPos_text hd).imp_right fun h => ?_
  exact ⟨ch, r.topicPartition, r.offset, rfl, h.2⟩

theorem reads_replayed {m : ReplayMessage} (hch : Decoded m.subject) (hp : m.pos = encodePos m.partition m.offset)
    (seq ts : Nat) : Reads (.replayed m seq ts) := by
  unfold Reads
  cases hv : parse m.data with
  | none =>
    rw [StreamFrame.payload, hv]
    exact .inl rfl
  | some v =>
    rw [StreamFrame.payload, hv]
    have hd : decodeObject msgPosFields (envelopeTree m.subject ts v m.pos (messageID m.topic m.partition m.offset) seq)
        ⟨[], []⟩ = some ⟨m.subject, encodePos m.partition m.offset⟩ := by
      rw [envelopeTree, decodeObject_object, hp, setMembers_envelope hch (decoded_encodePos _ _)]
    refine (sseMsgPos_text hd).imp_right fun h => ?_
    exact ⟨m.subject, (m.topic, m.partition), m.offset, rfl, h.2⟩

theorem reads_gap (g : GapNotification) : Reads (.gap g) := by
  have hd : ∃ ch, decodeObject msgPosFields g.tree ⟨[], []⟩ = some ⟨ch, []⟩ := by
    refine ⟨Utf8.encode (quote g.channel).unquote, ?_⟩
    rw [GapNotification.tree, decodeObject_object, setMembers_other _ _ _ "type" (by decide), setMembers_channel,
      decodeString, map_some, bind_some, setMembers_other _ _ _ "from_seq" (by decide),
      setMembers_other _ _ _ "to_seq" (by decide), setMembers_other _ _ _ "last_pos" (by decide),
      setMembers_other _ _ _ "ts" (by decide)]
    rfl
  obtain ⟨ch, hd⟩ := hd
  exact .inl ((sseMsgPos_text hd).resolve_right fun h => h.1 rfl)

theorem reads_control (c : Control) : Reads (.control c) := by
  have hd : decodeObject msgPosFields c.tree ⟨[], []⟩ = some ⟨[], []⟩ := by
    cases c with
    | noReplay channels =>
      rw [Control.tree, decodeObject_object, setMembers_other _ _ _ "type" (by decide)]
      split
      · rfl
      · rw [setMembers_other _ _ _ "channels" (by decide)]
        rfl
    | replayTruncated n =>
      rw [Control.tree, decodeObject_object, setMembers_other _ _ _ "type" (by decide),
        setMembers_other _ _ _ "replayed" (by decide)]
      rfl
    | recoveryComplete =>
      rw [Control.tree, decodeObject_object, setMembers_other _ _ _ "type" (by decide)]
      rfl
  exact .inl ((sseMsgPos_text hd).resolve_right fun h => h.1 rfl)

/-! ## The property -/

def frames (events : List Event) : List StreamFrame := events.filterMap Event.frame
def State.stream (s : State) : List StreamFrame := frames s.events ++ s.wire ++ s.send

def Params.baseline (p : Params) (ch : GoStr) (partition : Int) : Option Int :=
  match (p.lastPos.lookup ch).bind decodePos with
  | some (q, offset) => if q = partition then some offset else none
  | none => none

def owing (p : Params) (log : List Record) (ch : GoStr) (partition bound : Int) : List Record :=
  match p.baseline ch partition with
  | none => []
  | some base =>
    log.filter fun r => channelOf r = some ch ∧ r.partition = partition ∧ base < r.offset ∧ r.offset < bound

def Carried (fs : List StreamFrame) (ch : GoStr) (r : Record) : Prop :=
  ∃ f ∈ fs, f.message = some (ch, r.topicPartition, r.offset)

def Covered (fs : List StreamFrame) (ch : GoStr) : Prop := ∃ f ∈ fs, f.covers ch = true

instance (fs : List StreamFrame) (ch : GoStr) (r : Record) : Decidable (Carried fs ch r) :=
  inferInstanceAs (Decidable (∃ f ∈ fs, _))

instance (fs : List StreamFrame) (ch : GoStr) : Decidable (Covered fs ch) := inferInstanceAs (Decidable (∃ f ∈ fs, _))

/-- Whenever an id gives a position for a channel, the messages of the channel up to it were written by then, or a frame that
covers the channel was. -/
def NeverAhead (p : Params) (s : State) : Prop :=
  Justified (fun before e => ∀ token ∈ e.id, ∀ cursor ∈ decodeSSECursor token, ∀ entry ∈ cursor,
    ∀ pos ∈ decodePos entry.2, ∀ r ∈ owing p s.log entry.1 pos.1 (pos.2 + 1),
      Carried (frames (before ++ [e])) entry.1 r ∨ Covered (frames before) entry.1) s.events

/-- Nothing of the channel is missing in front of the record. -/
def InOrder (p : Params) (s : State) (ch : GoStr) (r : Record) : Prop :=
  ∀ r' ∈ owing p s.log ch r.partition r.offset, Carried s.stream ch r' ∨ Covered s.stream ch

def Phase.serializes : Phase → Bool
  | .forwarding (m :: _) _ _ _ _ => (parse m.data).isSome
  | _ => true

/-- Records are produced to the topic of their channel, a live message is JSON and does not overtake, and the replay can
serialize what it reads. -/
def Good (p : Params) (s : State) : Act → Prop
  | .produce r => ∀ ch ∈ channelOf r, ch ∈ p.channels → p.backend.channelTopic ch = some r.topic
  | .broadcast r _ => hasRoom p s = true → (parse r.value).isSome = true ∧ ∀ ch ∈ channelOf r, InOrder p s ch r
  | .forward _ => s.phase.serializes = true
  | _ => True

instance (p : Params) (s : State) (ch : GoStr) (r : Record) : Decidable (InOrder p s ch r) :=
  inferInstanceAs (Decidable (∀ r' ∈ owing p s.log ch r.partition r.offset, _))

instance (p : Params) (s : State) (a : Act) : Decidable (Good p s a) :=
  match a with
  | .produce r => inferInstanceAs (Decidable (∀ ch ∈ channelOf r, ch ∈ p.channels → _))
  | .broadcast r _ => inferInstanceAs (Decidable (hasRoom p s = true → _ ∧ ∀ ch ∈ channelOf r, InOrder p s ch r))
  | .forward _ => inferInstanceAs (Decidable (s.phase.serializes = true))
  | .recover _ _ | .finish _ | .control | .abandon | .hangUp | .pump | .pumpGap _ | .deliver _ | .tick _ => isTrue trivial

variable {p : Params}

theorem mem_owing {log : List Record} {partition bound : Int} {r : Record} :
    r ∈ owing p log ch partition bound ↔ ∃ base, p.baseline ch partition = some base ∧ r ∈ log ∧ channelOf r = some ch ∧
      r.partition = partition ∧ base < r.offset ∧ r.offset < bound := by
  unfold owing
  cases p.baseline ch partition with
  | none | some base => simp

theorem baseline_eq_some {partition base : Int} (h : p.baseline ch partition = some base) :
    ∃ pos, (ch, pos) ∈ p.lastPos ∧ decodePos pos = some (partition, base) := by
  unfold Params.baseline at h
  split at h
  · rename_i q offset hp
    split at h
    · rename_i hq
      cases h
      obtain ⟨pos, hl, hd⟩ := bind_eq_some_iff.1 hp
      obtain ⟨before, after, heq, -⟩ := lookup_eq_some_iff.1 hl
      refine ⟨pos, ?_, hq ▸ hd⟩
      rw [heq]
      exact mem_append_right _ mem_cons_self
    · cases h
  · cases h

theorem utf8_lastPos (p : Params) : Utf8Map p.lastPos := by
  unfold Params.lastPos
  split
  · rename_i cursor hd
    exact (decodeSSECursor_utf8 hd).filter _
  · exact utf8Map_nil

theorem lastPos_channel {e : GoStr × GoStr} (h : e ∈ p.lastPos) : e.1 ∈ p.channels := by
  unfold Params.lastPos at h
  split at h
  · exact of_decide_eq_true (mem_filter.1 h).2
  · cases h

theorem pos_unique {ch pos pos' : GoStr} (h : (ch, pos) ∈ p.lastPos) (h' : (ch, pos') ∈ p.lastPos) : pos = pos' :=
  congrArg Prod.snd (inj_on_of_nodup_map (utf8_lastPos p).1 h h' rfl)

end Sukko.Gateway.SseStream
