import Sukko.Server.Recovery
/-
# The frames of an SSE client's queue
-/

namespace Sukko.Server
open GoStr Json Utf8 List
open Kafka (TopicPartition Record ReplayMessage encodePos)

/-! ## The id of a message -/

def formatHex (n : Nat) : GoStr := if n = 0 then [48] else (Nat.digits 16 n).reverse.map hexDigit
def fnv64a (s : GoStr) : UInt64 := s.foldl (fun h b => (h ^^^ b.toUInt64) * 1099511628211) 14695981039346656037

/-- See `shared/kafka/mid.go:27`. -/
def messageID (topic : GoStr) (partition offset : Int) : GoStr :=
  formatHex (fnv64a topic).toNat ++ dash :: (formatInt partition ++ dash :: formatInt offset)

theorem isPlain_hexDigit : ∀ n < 16, isPlain (hexDigit n) = true := by decide

theorem isPlain_of_isDigit {b : UInt8} (h : isDigit b = true) : isPlain b = true := by
  have ha : ∀ n < 256, isDigit (.ofNat n) = true → isPlain (.ofNat n) = true := by decide +kernel
  have hb := ha b.toNat b.toNat_lt
  rw [UInt8.ofNat_toNat] at hb
  exact hb h

theorem isPlain_dash : isPlain dash = true := by decide

theorem formatHex_plain (n : Nat) : ∀ b ∈ formatHex n, isPlain b = true := by
  intro b hb
  unfold formatHex at hb
  split at hb
  · rw [mem_singleton.1 hb]
    decide
  · obtain ⟨d, hd, rfl⟩ := mem_map.1 hb
    exact isPlain_hexDigit d (Nat.digits_lt_base (by omega) (mem_reverse.1 hd))

theorem formatInt_plain (n : Int) : ∀ b ∈ formatInt n, isPlain b = true := by
  have hn : ∀ b ∈ formatNat n.natAbs, isPlain b = true := fun b hb => isPlain_of_isDigit (formatNat_isDigit _ b hb)
  unfold formatInt
  split
  · rw [forall_mem_cons]
    exact ⟨isPlain_dash, hn⟩
  · exact hn

theorem messageID_plain (topic : GoStr) (partition offset : Int) : ∀ b ∈ messageID topic partition offset, isPlain b = true := by
  simp only [messageID, forall_mem_append, forall_mem_cons]
  exact ⟨formatHex_plain _, isPlain_dash, formatInt_plain partition, isPlain_dash, formatInt_plain offset⟩

theorem encodePos_plain (partition offset : Int) : ∀ b ∈ encodePos partition offset, isPlain b = true := by
  rw [encodePos, forall_mem_append, forall_mem_cons]
  exact ⟨formatInt_plain _, isPlain_dash, formatInt_plain offset⟩

theorem encodePos_ne_nil (partition offset : Int) : encodePos partition offset ≠ [] := by simp [encodePos]
theorem messageID_ne_nil (topic : GoStr) (partition offset : Int) : messageID topic partition offset ≠ [] := by simp [messageID]

/-! ## Live messages -/

def fieldText (name : String) : GoStr := quoteMark :: (str name ++ [quoteMark, colonMark])

def rawField (name : String) (text : GoStr) : GoStr :=
  if text = [] then [] else comma :: (fieldText name ++ quoteMark :: (text ++ [quoteMark]))

def msgTypeMessage : GoStr := str "message"

def broadcastBytes (channel : GoStr) (timestamp : Nat) (payload pos mid : GoStr) (seq : Nat) : GoStr :=
  Kind.obj.openByte :: (fieldText "type" ++ quoteMark :: (msgTypeMessage ++ quoteMark :: comma :: (fieldText "seq" ++
    (formatNat seq ++ comma :: (fieldText "ts" ++ (formatNat timestamp ++ comma :: (fieldText "channel" ++
      ((quote channel).text ++ comma :: (fieldText "data" ++ ((if payload = [] then str "null" else payload) ++
        (rawField "pos" pos ++ (rawField "mid" mid ++ [Kind.obj.closeByte]))))))))))))

def envelopeMembers (channel : GoStr) (timestamp : Nat) (data : Value) (pos mid : GoStr) (seq : Nat) :
    List (List Char × Value) :=
  [("type".toList, .str (quote msgTypeMessage)), ("seq".toList, .num (.ofNat seq)), ("ts".toList, .num (.ofNat timestamp)),
   ("channel".toList, .str (quote channel)), ("data".toList, data), ("pos".toList, .str (quote pos)),
   ("mid".toList, .str (quote mid))]

def envelopeTree (channel : GoStr) (timestamp : Nat) (data : Value) (pos mid : GoStr) (seq : Nat) : Value :=
  object (envelopeMembers channel timestamp data.compact pos mid seq)

def keyBefore (name : String) (w : Space) : Key := { keyOf name.toList with after := w }

theorem fieldNames_plain : ∀ name ∈ ["type", "seq", "ts", "channel", "data", "pos", "mid"],
    (∀ b ∈ str name, isPlain b = true) ∧ encode name.toList = str name := by decide +kernel

theorem keyBefore_text {name : String} (h : name ∈ ["type", "seq", "ts", "channel", "data", "pos", "mid"]) (w : Space) :
    Lead.text .obj (keyBefore name w) = fieldText name ++ w.bytes := by
  obtain ⟨hp, hn⟩ := fieldNames_plain name h
  simp [Lead.text, keyBefore, keyOf, fieldText, Space.none, hn, text_quote_plain hp]

theorem keyBefore_unquote (name : String) (w : Space) : (keyBefore name w).name.unquote = name.toList :=
  unquote_quote name.toList

def liveEntries (channel : GoStr) (timestamp : Nat) (w : Space) (v : Value) (w' : Space) (pos mid : GoStr) (seq : Nat) :
    Entries .obj :=
  .cons (keyBefore "type" .none) (.str (quote msgTypeMessage)) .none <|
  .cons (keyBefore "seq" .none) (.num (.ofNat seq)) .none <|
  .cons (keyBefore "ts" .none) (.num (.ofNat timestamp)) .none <|
  .cons (keyBefore "channel" .none) (.str (quote channel)) .none <|
  .cons (keyBefore "data" w) v w' <|
  .cons (keyBefore "pos" .none) (.str (quote pos)) .none <|
  .last (keyBefore "mid" .none) (.str (quote mid)) .none

theorem members_liveEntries (channel : GoStr) (timestamp : Nat) (w : Space) (v : Value) (w' : Space) (pos mid : GoStr) (seq : Nat) :
    (liveEntries channel timestamp w v w' pos mid seq).members = envelopeMembers channel timestamp v pos mid seq := by
  simp only [liveEntries, Entries.members, Entries.toList, map_cons, map_nil, keyBefore_unquote, envelopeMembers]

theorem msgTypeMessage_plain : ∀ b ∈ msgTypeMessage, isPlain b = true := by decide +kernel

/-- **A live message is a JSON object** if its payload is JSON. -/
theorem broadcastBytes_text {payload : GoStr} {v : Value} (hv : parse payload = some v) {pos mid : GoStr}
    (hpo : pos ≠ []) (hps : ∀ b ∈ pos, isPlain b = true) (hmd : mid ≠ []) (hm : ∀ b ∈ mid, isPlain b = true)
    (channel : GoStr) (timestamp seq : Nat) : ∃ w w', broadcastBytes channel timestamp payload pos mid seq =
      (Value.coll .obj (liveEntries channel timestamp w v w' pos mid seq)).text := by
  obtain ⟨⟨w, w', hp⟩, -⟩ := parse_iff.1 hv
  have hne : payload ≠ [] := by
    rintro rfl
    cases hv
  refine ⟨w, w', ?_⟩
  rw [broadcastBytes, if_neg hne, rawField, if_neg hpo, rawField, if_neg hmd, hp]
  simp only [liveEntries, Value.text, Entries.text, @keyBefore_text "type" (by simp), @keyBefore_text "seq" (by simp),
    @keyBefore_text "ts" (by simp), @keyBefore_text "channel" (by simp), @keyBefore_text "data" (by simp),
    @keyBefore_text "pos" (by simp), @keyBefore_text "mid" (by simp), text_quote_plain msgTypeMessage_plain,
    text_quote_plain hps, text_quote_plain hm, Number.ofNat, Space.none]
  simp only [append_assoc, cons_append, nil_append, append_nil]

/-! ## Gap notifications -/

structure GapNotification where
  channel : GoStr
  fromSeq : Nat
  toSeq : Nat
  lastPos : GoStr
  ts : Nat
deriving DecidableEq

def msgTypeGap : GoStr := str "gap"

def GapNotification.tree (g : GapNotification) : Value :=
  object [("type".toList, .str (quote msgTypeGap)), ("channel".toList, .str (quote g.channel)),
    ("from_seq".toList, .num (.ofNat g.fromSeq)), ("to_seq".toList, .num (.ofNat g.toSeq)),
    ("last_pos".toList, .str (quote g.lastPos)), ("ts".toList, .num (.ofNat g.ts))]

/-- See `server/pump.go:544`. -/
def coalesceGapNotifications : GapNotification → List GapNotification →
    GapNotification × Option GapNotification × List GapNotification
  | merged, [] => (merged, none, [])
  | merged, gap :: queue =>
    if gap.channel ≠ merged.channel then (merged, some gap, queue)
    else
      coalesceGapNotifications
        { merged with fromSeq := min merged.fromSeq gap.fromSeq, toSeq := max merged.toSeq gap.toSeq } queue

/-! ## Control frames -/

def msgTypeNoReplay : GoStr := str "no_replay"
def msgTypeReplayTruncated : GoStr := str "replay_truncated"
def msgTypeRecoveryComplete : GoStr := str "recovery_complete"

/-- Models `replayControlEnvelope` (`server/replay_shared.go:157`). -/
def Control.tree : Control → Value
  | .noReplay channels =>
    object (("type".toList, .str (quote msgTypeNoReplay)) ::
      if channels = [] then [] else [("channels".toList, array (channels.map fun c => .str (quote c)))])
  | .replayTruncated replayed =>
    object [("type".toList, .str (quote msgTypeReplayTruncated)), ("replayed".toList, .num (.ofNat replayed))]
  | .recoveryComplete => object [("type".toList, .str (quote msgTypeRecoveryComplete))]

/-! ## Frames -/

inductive StreamFrame
  | live (channel : GoStr) (r : Record) (seq ts : Nat)
  | replayed (m : ReplayMessage) (seq ts : Nat)
  | gap (g : GapNotification)
  | control (c : Control)
deriving DecidableEq

def StreamFrame.payload : StreamFrame → GoStr
  | .live channel r seq ts =>
    broadcastBytes channel ts r.value (encodePos r.partition r.offset) (messageID r.topic r.partition r.offset) seq
  | .replayed m seq ts =>
    match parse m.data with
    | some v => (envelopeTree m.subject ts v m.pos (messageID m.topic m.partition m.offset) seq).text
    | none => []
  | .gap g => g.tree.text
  | .control c => c.tree.text

def StreamFrame.message : StreamFrame → Option (GoStr × TopicPartition × Int)
  | .live channel r _ _ => some (channel, r.topicPartition, r.offset)
  | .replayed m _ _ => some (m.subject, (m.topic, m.partition), m.offset)
  | _ => none

def StreamFrame.covers (f : StreamFrame) (channel : GoStr) : Bool :=
  match f with
  | .gap g => g.channel = channel
  | .control (.noReplay channels) => channel ∈ channels
  | .control (.replayTruncated _) => true
  | _ => false

end Sukko.Server
