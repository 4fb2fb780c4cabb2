import Sukko.Lib.Decimal
import Sukko.Lib.Json.Decode
/-
# What a JSON text says

The value of a tree forgets white space and the way a string literal is written. Numbers are kept as they are spelled.
-/

namespace Sukko.Json
open GoStr Utf8 List Function

inductive Data
  | null
  | bool (b : Bool)
  | num (raw : GoStr)
  | str (s : List Char)
  | coll (k : Kind) (es : List (List Char × Data))

def Lead.name : (k : Kind) → Lead k → List Char
  | .arr, _ => []
  | .obj, key => Str.unquote (Key.name key)

mutual

def Value.data : Value → Data
  | .null => .null
  | .bool b => .bool b
  | .num n => .num n.raw
  | .str s => .str s.unquote
  | .empty k _ => .coll k []
  | .coll k es => .coll k es.data

def Entries.data : {k : Kind} → Entries k → List (List Char × Data)
  | k, .last l v _ => [(l.name k, v.data)]
  | k, .cons l v _ es => (l.name k, v.data) :: es.data

end

theorem Lead.name_compact (k : Kind) (l : Lead k) : (l.compact k).name k = l.name k := by
  cases k with
  | arr => rfl
  | obj => exact unquote_escapeHTML _

mutual

theorem Value.data_compact (v : Value) : v.compact.data = v.data := by
  match v with
  | .null => rfl
  | .bool b => rfl
  | .num n => rfl
  | .str s => rw [Value.compact, Value.data, Value.data, unquote_escapeHTML]
  | .empty k w => rfl
  | .coll k es => rw [Value.compact, Value.data, Value.data, es.data_compact]

theorem Entries.data_compact {k : Kind} (es : Entries k) : es.compact.data = es.data := by
  match es with
  | .last l v w => rw [Entries.compact, Entries.data, Entries.data, l.name_compact, v.data_compact]
  | .cons l v w es => rw [Entries.compact, Entries.data, Entries.data, l.name_compact, v.data_compact, es.data_compact]

end

def decoded (s : GoStr) : Option Data := (parse s).map Value.data

theorem decoded_congr {v v' : Value} (hdt : v.data = v'.data) (hd : v.depth = v'.depth) : decoded v.text = decoded v'.text := by
  have hdp {u : Value} (h : ¬u.depth ≤ maxNestingDepth) : parse u.text = none := by
    rw [Option.eq_none_iff_forall_ne_some]
    intro u' hu
    rw [parse_text hu] at hu
    exact h (parse_iff.1 hu).2
  unfold decoded
  by_cases h : v.depth ≤ maxNestingDepth
  · rw [parse_written h, parse_written (hd ▸ h), Option.map_some, Option.map_some, hdt]
  · rw [hdp h, hdp (hd ▸ h)]

/-! ## Entries with white space -/

def spaced {k : Kind} : Lead k × Value × Space → List (Lead k × Value × Space) → Entries k
  | e, [] => .last e.1 e.2.1 e.2.2
  | e, e' :: es => .cons e.1 e.2.1 e.2.2 (spaced e' es)

variable {k : Kind}

section
variable (e : Lead k × Value × Space) (es : List (Lead k × Value × Space))

theorem spaced_text :
    (spaced e es).text = e.1.text k ++ (e.2.1.text ++ (e.2.2.bytes ++
      (es.flatMap (fun e => comma :: (e.1.text k ++ (e.2.1.text ++ e.2.2.bytes))) ++ [k.closeByte]))) := by
  induction es generalizing e with
  | nil => rfl
  | cons e' es ih => simp [spaced, Entries.text, ih]

theorem spaced_data :
    (spaced e es).data = (e :: es).map fun e => (e.1.name k, e.2.1.data) := by
  induction es generalizing e with
  | nil => rfl
  | cons e' es ih =>
    rw [spaced, Entries.data, ih]
    rfl

theorem spaced_depth :
    (spaced e es).depth = ((e :: es).map fun e => e.2.1.depth).foldr max 0 := by
  induction es generalizing e with
  | nil => exact (Nat.max_zero _).symm
  | cons e' es ih =>
    rw [spaced, Entries.depth, ih]
    rfl

end

theorem entriesOf_eq (e : Lead k × Value) (es : List (Lead k × Value)) :
    entriesOf e es = spaced (e.1, e.2, .none) (es.map fun e => (e.1, e.2, .none)) := by
  induction es generalizing e with
  | nil => rfl
  | cons e' es ih => rw [entriesOf, ih, map_cons, spaced]

theorem name_keyOf (name : List Char) : Lead.name .obj (keyOf name) = name := unquote_quote name

theorem object_data (ms : List (List Char × Value)) : (object ms).data = .coll .obj (ms.map fun m => (m.1, m.2.data)) := by
  cases ms with
  | nil => rfl
  | cons m ms => simp [object, Value.data, entriesOf_eq, spaced_data, name_keyOf, comp_def]

theorem object_depth (m : List Char × Value) (ms : List (List Char × Value)) :
    (object (m :: ms)).depth = ((m :: ms).map fun m => m.2.depth).foldr max 0 + 1 := by
  simp [object, Value.depth, entriesOf_eq, spaced_depth, comp_def]

/-! ## Strings without escapes -/

theorem unquote_quote_bytes (s : GoStr) : (quote s).unquote = (decode s).map (·.getD runeError) := by
  change unquoteItems ((decode s).flatMap quoteUnit) = _
  induction decode s with
  | nil => rfl
  | cons u us ih =>
    rw [flatMap_cons, map_cons, ← ih]
    cases u with
    | some c => exact unquote_quoteRune c _
    | none => rfl

theorem decodeRune_contRun (b : UInt8) (t : GoStr) : decodeRune (b :: contRun (t.map .byte)) = decodeRune (b :: t) := by
  have hp (t : GoStr) : contRun (t.map .byte) <+: t := by
    induction t with
    | nil => exact prefix_rfl
    | cons a t ih =>
      rw [map_cons, contRun]
      split
      · exact prefix_cons_inj a |>.2 ih
      · exact nil_prefix
  cases hd : decodeRune (b :: t) with
  | none =>
    rw [Option.eq_none_iff_forall_ne_some]
    intro c hc
    obtain ⟨r, hr⟩ := (encodeRune_of_decodeRune hc).trans (prefix_cons_inj b |>.2 (hp t))
    rw [← hr, decodeRune_encodeRune] at hd
    cases hd
  | some c =>
    obtain ⟨b', u, hs, hcn, -⟩ := encodeRune_shape c
    obtain ⟨r, hr⟩ := encodeRune_of_decodeRune hd
    rw [hs, cons_append] at hr
    obtain ⟨rfl, rfl⟩ := List.cons.inj hr
    rw [map_append, contRun_append hcn, ← cons_append, ← hs, decodeRune_encodeRune]

/-- Bytes that a literal holds as they are: no quotation mark, no backslash and no control character. -/
def Raw (s : GoStr) : Prop := ∀ b ∈ s, (Item.byte b).ok = true

def rawStr (s : GoStr) (h : Raw s) : Str where
  items := s.map .byte
  ok := by
    rw [List.all_map, List.all_eq_true]
    exact h

variable {s : GoStr} {h : Raw s}

theorem rawStr_text : (rawStr s h).text = quoteMark :: (s ++ [quoteMark]) := by
  rw [Str.text, itemsText, rawStr, flatMap_map]
  simp [Item.text, flatMap_singleton']

theorem rawStr_unquote : (rawStr s h).unquote = (quote s).unquote := by
  have hr (b : UInt8) (t : GoStr) : readChar (.byte b) (t.map .byte) = ((readRune b t).1.getD runeError, (readRune b t).2) := by
    rw [readChar, readRune, decodeRune_contRun]
    cases decodeRune (b :: t) <;> rfl
  have hc (s : GoStr) (n : Nat) : chunks readChar n (s.map .byte) = (chunks readRune n s).map (·.getD runeError) := by
    induction s generalizing n with
    | nil => cases n <;> rfl
    | cons b s ih =>
      cases n with
      | succ n => exact ih n
      | zero => rw [map_cons, chunks, chunks, hr, ih, map_cons]
  rw [unquote_quote_bytes]
  exact hc s 0

/-! ## Integers -/

theorem validNumber_neg (h : validNumber s = true) (hs : ∀ b ∈ s, isDigit b = true) : validNumber (45 :: s) = true := by
  cases s with
  | nil => cases h
  | cons b t =>
    have hb : b ≠ 45 := by
      rintro rfl
      exact absurd (hs 45 mem_cons_self) (by decide)
    simpa [validNumber, hb] using h

def Number.ofInt (n : Int) : Number where
  raw := formatInt n
  ok := by
    have hnat := (Number.ofNat n.natAbs).ok
    unfold formatInt
    split
    · rw [Bool.and_eq_true] at hnat ⊢
      refine ⟨?_, validNumber_neg hnat.2 (formatNat_isDigit _)⟩
      rw [List.all_cons, Bool.and_eq_true]
      exact ⟨by decide, hnat.1⟩
    · exact hnat

end Sukko.Json
