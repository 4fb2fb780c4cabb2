import Sukko.Lib.Base64
import Sukko.Shared.Protocol
/-
# The cursor of an SSE stream
-/

namespace Sukko.Gateway
open GoStr Json Protocol List Option

def sseCursorPrefix : GoStr := str "v1:"

def encodeSSECursor (cursor : StrMap) : GoStr :=
  if cursor = [] then [] else sseCursorPrefix ++ Base64.encode (stringMapTree cursor).text

/-- See `gateway/sse_cursor.go:38`. -/
def decodeSSECursor (token : GoStr) : Option StrMap :=
  let token := trimSpace token
  if !hasPrefix token sseCursorPrefix then none
  else
    match Base64.decode (token.drop sseCursorPrefix.length) with
    | none => none
    | some raw =>
      match (parse raw).bind (decodeStrMap · []) with
      | none => none
      | some cursor => if cursor = [] then none else some cursor

structure MsgPos where
  channel : GoStr
  pos : GoStr
deriving DecidableEq

def msgPosFields : List (StructField MsgPos) :=
  [⟨"channel".toList, fun v e => (decodeString v e.channel).map fun s => { e with channel := s }⟩,
   ⟨"pos".toList, fun v e => (decodeString v e.pos).map fun s => { e with pos := s }⟩]

/-- See `gateway/sse_cursor.go:58`. -/
def sseMsgPos (payload : GoStr) : Option (GoStr × GoStr) :=
  match unmarshal msgPosFields ⟨[], []⟩ payload with
  | none => none
  | some e => if e.pos = [] then none else some (e.channel, e.pos)

def intersectCursorChannels (cursor : StrMap) (channels : List GoStr) : StrMap := cursor.filter (·.1 ∈ channels)

/-! ## What was decoded is UTF-8 -/

def Utf8Map (m : StrMap) : Prop := (m.map Prod.fst).Nodup ∧ ∀ e ∈ m, Decoded e.1 ∧ Decoded e.2

theorem utf8Map_nil : Utf8Map [] := ⟨List.nodup_nil, by simp⟩

variable {m : StrMap}

theorem mem_insert {key value : GoStr} {e : GoStr × GoStr} : e ∈ m.insert key value ↔ e ∈ m ∧ e.1 ≠ key ∨ e = (key, value) := by
  simp [StrMap.insert]

theorem Utf8Map.insert (h : Utf8Map m) {key value : GoStr} (hk : Decoded key) (hv : Decoded value) :
    Utf8Map (m.insert key value) := by
  constructor
  · rw [StrMap.insert, map_append, nodup_append]
    refine ⟨h.1.sublist (filter_sublist.map _), by simp, ?_⟩
    intro a ha b hb
    obtain ⟨e, he, rfl⟩ := mem_map.1 ha
    rw [mem_singleton.1 hb]
    exact of_decide_eq_true (mem_filter.1 he).2
  · intro e he
    rcases mem_insert.1 he with ⟨he, -⟩ | rfl
    · exact h.2 e he
    · exact ⟨hk, hv⟩

theorem Utf8Map.filter (h : Utf8Map m) (p : GoStr × GoStr → Bool) : Utf8Map (m.filter p) :=
  ⟨h.1.sublist (filter_sublist.map _), fun e he => h.2 e (mem_of_mem_filter he)⟩

theorem decodeEntries_utf8 {ms : List (List Char × Value)} {m' : StrMap} (hm : Utf8Map m) (h : decodeEntries ms m = some m') :
    Utf8Map m' := by
  induction ms generalizing m with
  | nil =>
    cases h
    exact hm
  | cons e ms ih =>
    obtain ⟨x, hx, h⟩ := bind_eq_some_iff.1 h
    exact ih (hm.insert ⟨e.1, rfl⟩ (decodeString_decoded decoded_nil hx)) h

theorem decodeSSECursor_utf8 {token : GoStr} {cursor : StrMap} (h : decodeSSECursor token = some cursor) : Utf8Map cursor := by
  unfold decodeSSECursor at h
  dsimp only at h
  split at h
  · cases h
  split at h
  · cases h
  split at h
  · cases h
  rename_i cursor' hd
  split at h
  · cases h
  cases h
  obtain ⟨v, -, hv⟩ := bind_eq_some_iff.1 hd
  unfold decodeStrMap at hv
  split at hv
  · cases hv
    exact utf8Map_nil
  · cases hv
    exact utf8Map_nil
  · exact decodeEntries_utf8 utf8Map_nil hv
  · cases hv

theorem sseMsgPos_decoded {payload channel pos : GoStr} (h : sseMsgPos payload = some (channel, pos)) :
    Decoded channel ∧ Decoded pos := by
  unfold sseMsgPos at h
  split at h
  · cases h
  rename_i e hd
  split at h
  · cases h
  cases h
  obtain ⟨v, -, hv⟩ := bind_eq_some_iff.1 hd
  refine decodeObject_keeps (P := fun e : MsgPos => Decoded e.channel ∧ Decoded e.pos) ?_ ⟨decoded_nil, decoded_nil⟩ hv
  intro f hf v s s' hs hset
  simp only [msgPosFields, mem_cons, not_mem_nil, or_false] at hf
  rcases hf with rfl | rfl
  · obtain ⟨x, hx, rfl⟩ := map_eq_some_iff.1 hset
    exact ⟨decodeString_decoded hs.1 hx, hs.2⟩
  · obtain ⟨x, hx, rfl⟩ := map_eq_some_iff.1 hset
    exact ⟨hs.1, decodeString_decoded hs.2 hx⟩

/-! ## The token -/

theorem Utf8Map.written (h : Utf8Map m) : m.Written := by
  refine ⟨h.1, fun e he => ?_⟩
  obtain ⟨⟨cs, hcs⟩, ⟨ds, hds⟩⟩ := h.2 e he
  rw [hcs, hds, unquote_quote, unquote_quote]
  exact ⟨rfl, rfl⟩

theorem trimSpace_token (s : GoStr) : trimSpace (sseCursorPrefix ++ Base64.encode s) = sseCursorPrefix ++ Base64.encode s := by
  refine trimSpace_eq_self rfl ?_
  rw [List.getLast?_append]
  cases hl : (Base64.encode s).getLast? with
  | none => rfl
  | some b =>
    obtain ⟨n, hn, rfl⟩ := Base64.mem_encode (mem_of_getLast? hl)
    have hd := (Base64.digit_spec n hn).2.2
    simp [isGraphic, hd]

theorem decodeSSECursor_encode (hne : m ≠ []) (h : Utf8Map m) :
    ∃ m', decodeSSECursor (encodeSSECursor m) = some m' ∧ m'.Perm m := by
  obtain ⟨m', hd, hp⟩ := decodeStrMap_stringMapTree h.written
  have hn : m' ≠ [] := fun hnl => hne (nil_perm.1 (hnl ▸ hp))
  refine ⟨m', ?_, hp⟩
  have hpe : hasPrefix (sseCursorPrefix ++ Base64.encode (stringMapTree m).text) sseCursorPrefix = true :=
    isPrefixOf_iff_prefix.2 (prefix_append _ _)
  have hpr : parse (stringMapTree m).text = some (stringMapTree m) := parse_written ((depth_stringMapTree m).trans (by decide))
  rw [encodeSSECursor, if_neg hne, decodeSSECursor]
  simp only [trimSpace_token, hpe, Bool.not_true, Bool.false_eq_true, if_false, drop_left, Base64.decode_encode,
    hpr, bind_some, hd, if_neg hn]

end Sukko.Gateway
