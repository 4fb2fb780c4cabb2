import Sukko.Lib.Json.Data
import Sukko.Server.StreamFrames
/-
# Broadcast frames and the reference encoding

`StreamFrames` has counts for the two numbers and a position and an id that are there; here the numbers are `int64` and the two
fields may be missing.

**`encoding/json` boundary**: the text of a tree, and compacting a raw value (`Lib/Json`).
-/

namespace Sukko.Server
open GoStr Json List

structure BroadcastEnvelope where
  start : GoStr
  sharedSuffix : GoStr
deriving DecidableEq

/-- See `server/messaging/broadcast_envelope.go:53`. -/
def newBroadcastEnvelope (channel : GoStr) (timestamp : Int) (payload : Option GoStr) (pos mid : GoStr) : BroadcastEnvelope where
  start := Kind.obj.openByte :: (fieldText "type" ++ quoteMark :: (msgTypeMessage ++ quoteMark :: comma :: fieldText "seq"))
  sharedSuffix :=
    comma :: (fieldText "ts" ++ (formatInt timestamp ++ comma :: (fieldText "channel" ++ ((quote channel).text ++
      comma :: (fieldText "data" ++ (payload.getD (str "null") ++
        (rawField "pos" pos ++ (rawField "mid" mid ++ [Kind.obj.closeByte]))))))))

def BroadcastEnvelope.appendTo (e : BroadcastEnvelope) (dst : GoStr) (seq : Int) : GoStr :=
  dst ++ (e.start ++ (formatInt seq ++ e.sharedSuffix))

/-- Models `MessageEnvelope` without its `Priority`, which is not encoded (`server/messaging/message.go:51`). -/
structure MessageEnvelope where
  type : GoStr
  seq : Int
  timestamp : Int
  channel : GoStr
  data : Option GoStr
  pos : GoStr
  mid : GoStr
deriving DecidableEq

def omitEmpty (name : String) (s : GoStr) : List (List Char × Value) := if s = [] then [] else [(name.toList, .str (quote s))]

def MessageEnvelope.tree (m : MessageEnvelope) (data : Value) : Value :=
  object ([("type".toList, .str (quote m.type)), ("seq".toList, .num (.ofInt m.seq)), ("ts".toList, .num (.ofInt m.timestamp)),
    ("channel".toList, .str (quote m.channel)), ("data".toList, data)] ++ (omitEmpty "pos" m.pos ++ omitEmpty "mid" m.mid))

/-- See `server/messaging/message.go:212`. -/
def MessageEnvelope.serialize (m : MessageEnvelope) : Option GoStr :=
  match m.data with
  | none => some (m.tree .null).text
  | some data => (parse data).map fun v => (m.tree v.compact).text

theorem broadcastBytes_eq (channel : GoStr) (timestamp : Nat) (payload pos mid : GoStr) (seq : Nat) :
    broadcastBytes channel timestamp payload pos mid seq =
      (newBroadcastEnvelope channel timestamp (if payload = [] then none else some payload) pos mid).appendTo [] seq := by
  have hn (n : Nat) : formatInt n = formatNat n := by simp [formatInt]
  have hp : (if payload = [] then none else some payload).getD (str "null") =
      if payload = [] then str "null" else payload := by split <;> rfl
  simp [broadcastBytes, newBroadcastEnvelope, BroadcastEnvelope.appendTo, hn, hp]

/-! ## The frame as a tree -/

def entry (name : String) (v : Value) : Lead .obj × Value × Space := (keyBefore name .none, v, .none)

def rawEntry (name : String) {s : GoStr} (h : Raw s) : List (Lead .obj × Value × Space) :=
  if s = [] then [] else [entry name (.str (rawStr s h))]

def frameTree (channel : GoStr) (timestamp : Int) (w : Space) (v : Value) (w' : Space) {pos mid : GoStr} (hpos : Raw pos)
    (hmid : Raw mid) (seq : Int) : Value :=
  .coll .obj (spaced (entry "type" (.str (quote msgTypeMessage)))
    ([entry "seq" (.num (.ofInt seq)), entry "ts" (.num (.ofInt timestamp)), entry "channel" (.str (quote channel)),
      (keyBefore "data" w, v, w')] ++ (rawEntry "pos" hpos ++ rawEntry "mid" hmid)))

variable {pos mid : GoStr} {hpos : Raw pos} {hmid : Raw mid}

theorem rawEntry_text {name : String} (hn : name ∈ ["type", "seq", "ts", "channel", "data", "pos", "mid"]) {s : GoStr} (h : Raw s) :
    (rawEntry name h).flatMap (fun e => comma :: (Lead.text .obj e.1 ++ (e.2.1.text ++ e.2.2.bytes))) = rawField name s := by
  unfold rawEntry rawField
  split
  · rfl
  · simp [entry, keyBefore_text hn, Value.text, rawStr_text, Space.none]

theorem frameTree_text {payload : GoStr} {v : Value} {w w' : Space} (hpos : Raw pos) (hmid : Raw mid) (hp : payload = w.bytes ++ (v.text ++ w'.bytes))
    (channel : GoStr) (timestamp seq : Int) :
    (newBroadcastEnvelope channel timestamp (some payload) pos mid).appendTo [] seq =
      (frameTree channel timestamp w v w' hpos hmid seq).text := by
  rw [frameTree, Value.text, spaced_text, flatMap_append, flatMap_append, rawEntry_text (by simp), rawEntry_text (by simp)]
  simp only [entry, flatMap_cons, flatMap_nil, Value.text, @keyBefore_text "type" (by simp), @keyBefore_text "seq" (by simp),
    @keyBefore_text "ts" (by simp), @keyBefore_text "channel" (by simp), @keyBefore_text "data" (by simp),
    text_quote_plain msgTypeMessage_plain, Number.ofInt, Space.none]
  simp [newBroadcastEnvelope, BroadcastEnvelope.appendTo, hp]

def frameData (channel : GoStr) (timestamp : Int) (data : Data) (pos mid : GoStr) (seq : Int) : Data :=
  .coll .obj ([("type".toList, .str (quote msgTypeMessage).unquote), ("seq".toList, .num (formatInt seq)),
    ("ts".toList, .num (formatInt timestamp)), ("channel".toList, .str (quote channel).unquote), ("data".toList, data)] ++
    ((if pos = [] then [] else [("pos".toList, .str (quote pos).unquote)]) ++
      if mid = [] then [] else [("mid".toList, .str (quote mid).unquote)]))

theorem name_keyBefore (name : String) (w : Space) : Lead.name .obj (keyBefore name w) = name.toList := keyBefore_unquote name w

theorem frameTree_data (channel : GoStr) (timestamp : Int) (w : Space) (v : Value) (w' : Space) (seq : Int) :
    (frameTree channel timestamp w v w' hpos hmid seq).data = frameData channel timestamp v.data pos mid seq := by
  have he (name : String) {s : GoStr} (h : Raw s) : (rawEntry name h).map (fun e => (Lead.name .obj e.1, e.2.1.data)) =
      if s = [] then [] else [(name.toList, .str (quote s).unquote)] := by
    unfold rawEntry
    split
    · rfl
    · simp [entry, name_keyBefore, Value.data, rawStr_unquote]
  simp only [frameTree, entry, Value.data, spaced_data, map_cons, map_append, map_nil, he, name_keyBefore, frameData]
  rfl

theorem tree_data (channel : GoStr) (timestamp : Int) (payload : Option GoStr) (v : Value) (seq : Int) :
    (MessageEnvelope.tree ⟨msgTypeMessage, seq, timestamp, channel, payload, pos, mid⟩ v).data =
      frameData channel timestamp v.data pos mid seq := by
  have he (name : String) (s : GoStr) : (omitEmpty name s).map (fun m => (m.1, m.2.data)) =
      if s = [] then [] else [(name.toList, .str (quote s).unquote)] := by
    unfold omitEmpty
    split <;> rfl
  simp only [MessageEnvelope.tree, object_data, map_append, map_cons, map_nil, he, Value.data, frameData]
  rfl

theorem frameTree_depth (channel : GoStr) (timestamp : Int) (w : Space) (v : Value) (w' : Space) (seq : Int) :
    (frameTree channel timestamp w v w' hpos hmid seq).depth = v.depth + 1 := by
  have he (name : String) {s : GoStr} (h : Raw s) : ((rawEntry name h).map fun e => e.2.1.depth).foldr max 0 = 0 := by
    unfold rawEntry
    split <;> rfl
  simp [frameTree, entry, Value.depth, spaced_depth, he]

theorem tree_depth (m : MessageEnvelope) (v : Value) : (m.tree v).depth = v.depth + 1 := by
  have he (name : String) (s : GoStr) : ((omitEmpty name s).map fun m => m.2.depth).foldr max 0 = 0 := by
    unfold omitEmpty
    split <;> rfl
  simp [MessageEnvelope.tree, object_depth, he, Value.depth]

/-- **A frame put together by hand says what the reference encoding says**, if its payload is JSON and its position and id can be
written without escapes, unless the payload is nested as deep as a decoder goes. -/
theorem appendTo_serialize {payload : GoStr} {v : Value} (hv : parse payload = some v) (hpos : Raw pos) (hmid : Raw mid)
    (channel : GoStr) (timestamp seq : Int) :
    ∃ text, MessageEnvelope.serialize ⟨msgTypeMessage, seq, timestamp, channel, some payload, pos, mid⟩ = some text ∧
      decoded ((newBroadcastEnvelope channel timestamp (some payload) pos mid).appendTo [] seq) = decoded text ∧
      (v.depth < maxNestingDepth → decoded text = some (frameData channel timestamp v.data pos mid seq)) := by
  obtain ⟨⟨w, w', hpayload⟩, -⟩ := parse_iff.1 hv
  refine ⟨_, congrArg (Option.map _) hv, ?_, fun hdepth => ?_⟩
  · rw [frameTree_text hpos hmid hpayload]
    refine decoded_congr ?_ ?_
    · rw [frameTree_data, tree_data, v.data_compact]
    · rw [frameTree_depth, tree_depth, v.depth_compact]
  · rw [decoded, parse_written, Option.map_some, tree_data, v.data_compact]
    rw [tree_depth, v.depth_compact]
    exact hdepth

theorem appendTo_serialize_spaced :
    ∃ text, MessageEnvelope.serialize ⟨msgTypeMessage, 1, -1, str "acme.news", some (str " [ 7 ] "), str "1-0", []⟩ = some text ∧
      decoded ((newBroadcastEnvelope (str "acme.news") (-1) (some (str " [ 7 ] ")) (str "1-0") []).appendTo [] 1) = decoded text := by
  have hsome : (parse (str " [ 7 ] ")).isSome = true := by decide +kernel
  obtain ⟨v, hv⟩ := Option.isSome_iff_exists.1 hsome
  have hpos : ∀ b ∈ str "1-0", (Item.byte b).ok = true := by decide +kernel
  have hmid : Raw [] := forall_mem_nil _
  obtain ⟨text, hserialize, hsame, -⟩ := appendTo_serialize hv hpos hmid (str "acme.news") (-1) 1
  exact ⟨text, hserialize, hsame⟩

theorem quoted_id_not_json :
    decoded ((newBroadcastEnvelope (str "acme.news") 0 (some (str "7")) [] [quoteMark]).appendTo [] 1) = none ∧
      ((MessageEnvelope.serialize ⟨msgTypeMessage, 1, 0, str "acme.news", some (str "7"), [], [quoteMark]⟩).bind parse).isSome =
        true := by
  refine ⟨?_, by decide +kernel⟩
  rw [decoded, Option.map_eq_none_iff, ← Option.not_isSome_iff_eq_none]
  decide +kernel

end Sukko.Server
