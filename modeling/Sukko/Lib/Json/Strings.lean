import Sukko.Lib.Utf8
/-
# JSON strings

A literal is a list of items as it stands in the text (a byte, an escape, a `\u` escape); what it means is a list of runes
(`unquote`). The encoder writes `<`, `>`, `&` and the line separators of JavaScript as `\u` escapes.
-/

namespace Sukko.Json
open Utf8 List

/-! ## Literals -/

inductive Item
  | byte (b : UInt8)
  | esc (e : UInt8)
  | u (a b c d : UInt8)
deriving DecidableEq

def quoteMark : UInt8 := 34
def backslash : UInt8 := 92
def letterU : UInt8 := 117

def isHex (b : UInt8) : Bool :=
  (48 ≤ b.toNat && b.toNat ≤ 57) || (65 ≤ b.toNat && b.toNat ≤ 70) || (97 ≤ b.toNat && b.toNat ≤ 102)

def Item.ok : Item → Bool
  | .byte b => 0x20 ≤ b.toNat && b != quoteMark && b != backslash
  | .esc e => [34, 92, 47, 98, 102, 110, 114, 116].contains e
  | .u a b c d => isHex a && isHex b && isHex c && isHex d

def Item.text : Item → GoStr
  | .byte b => [b]
  | .esc e => [backslash, e]
  | .u a b c d => [backslash, letterU, a, b, c, d]

structure Str where
  items : List Item
  ok : items.all Item.ok = true
deriving DecidableEq

def itemsText (items : List Item) : GoStr := items.flatMap Item.text ++ [quoteMark]
def Str.text (s : Str) : GoStr := quoteMark :: itemsText s.items

def readItem (b : UInt8) (s : GoStr) : Option (Item × Nat) :=
  if b ≠ backslash then some (.byte b, 0)
  else
    match s with
    | [] => none
    | e :: s =>
      if e ≠ letterU then some (.esc e, 1)
      else
        match s with
        | a :: b :: c :: d :: _ => some (.u a b c d, 5)
        | _ => none

def scanItems : Nat → GoStr → Option (List Item × GoStr)
  | _, [] => none
  | k + 1, _ :: s => scanItems k s
  | 0, b :: s =>
    if b = quoteMark then some ([], s)
    else
      match readItem b s with
      | none => none
      | some (i, k) => (scanItems k s).map fun r => (i :: r.1, r.2)

def scanStr (s : GoStr) : Option (Str × GoStr) :=
  match scanItems 0 s with
  | none => none
  | some (items, rest) => if h : items.all Item.ok = true then some (⟨items, h⟩, rest) else none

variable {b d : UInt8} {i : Item} {n k : Nat} {s rest : GoStr} {items : List Item}

theorem readItem_sound (h : readItem b s = some (i, k)) : b :: s = i.text ++ s.drop k := by
  unfold readItem at h
  split at h
  · cases h
    rfl
  · rename_i hb
    have hs : b = backslash := not_not.1 hb
    split at h
    · cases h
    split at h
    · cases h
      rw [hs]
      rfl
    · rename_i he
      have hu := not_not.1 he
      split at h
      · cases h
        rw [hs, hu]
        rfl
      · cases h

theorem scanItems_item (h : i.ok = true) (rest : GoStr) :
    scanItems 0 (i.text ++ rest) = (scanItems 0 rest).map fun r => (i :: r.1, r.2) := by
  have hq : backslash ≠ quoteMark := by decide
  cases i with
  | byte b =>
    simp only [Item.ok, Bool.and_eq_true, bne_iff_ne, ne_eq] at h
    simp only [Item.text, cons_append, nil_append, scanItems, readItem, if_neg h.1.2, ne_eq, h.2, not_false_eq_true, if_true]
  | esc e =>
    have he : e ≠ letterU := by
      rintro rfl
      exact absurd h (by decide)
    simp only [Item.text, cons_append, nil_append, scanItems, readItem, if_neg hq, ne_eq, not_true,
      if_false, he, not_false_eq_true, if_true]
  | u a b c d =>
    simp only [Item.text, cons_append, nil_append, scanItems, readItem, if_neg hq, ne_eq, not_true, if_false]

theorem scanItems_text (h : items.all Item.ok = true) (rest : GoStr) :
    scanItems 0 (itemsText items ++ rest) = some (items, rest) := by
  induction items with
  | nil => rfl
  | cons i items ih =>
    rw [all_cons, Bool.and_eq_true] at h
    have hc : itemsText (i :: items) ++ rest = i.text ++ (itemsText items ++ rest) := by simp [itemsText]
    rw [hc, scanItems_item h.1, ih h.2]
    rfl

theorem scanItems_sound (h : scanItems k s = some (items, rest)) : s.drop k = itemsText items ++ rest := by
  induction s generalizing k items with
  | nil => cases k <;> cases h
  | cons b s ih =>
    cases k with
    | succ k => exact ih h
    | zero =>
      rw [scanItems] at h
      split at h
      · rename_i hb
        cases h
        rw [hb]
        rfl
      · split at h
        · cases h
        rename_i i k hi
        obtain ⟨⟨is, r⟩, hr, hir⟩ := Option.map_eq_some_iff.1 h
        cases hir
        rw [drop_zero, readItem_sound hi, ih hr]
        simp [itemsText]

theorem scanStr_text (t : Str) (rest : GoStr) : scanStr (itemsText t.items ++ rest) = some (t, rest) := by
  unfold scanStr
  rw [scanItems_text t.ok]
  exact dif_pos t.ok

theorem scanStr_sound {t : Str} (h : scanStr s = some (t, rest)) : s = itemsText t.items ++ rest := by
  unfold scanStr at h
  split at h
  · cases h
  rename_i items r hs
  split at h
  · cases h
    exact scanItems_sound hs
  · cases h

/-! ## What a literal means -/

def hexVal (b : UInt8) : Nat :=
  if b.toNat ≤ 57 then b.toNat - 48 else if b.toNat ≤ 70 then b.toNat - 55 else b.toNat - 87

def hexDigit (n : Nat) : UInt8 := if n < 10 then .ofNat (48 + n) else .ofNat (87 + n)
def uCode (a b c d : UInt8) : Nat := ((hexVal a * 16 + hexVal b) * 16 + hexVal c) * 16 + hexVal d

def escChar (e : UInt8) : Char :=
  if e = 98 then Char.ofNat 8
  else if e = 102 then Char.ofNat 12
  else if e = 110 then Char.ofNat 10
  else if e = 114 then Char.ofNat 13
  else if e = 116 then Char.ofNat 9
  else Char.ofNat e.toNat

def contRun : List Item → GoStr
  | .byte b :: t => if isCont b then b :: contRun t else []
  | _ => []

def lowSurrogate : List Item → Option Nat
  | .u a b c d :: _ => if 0xDC00 ≤ uCode a b c d ∧ uCode a b c d < 0xE000 then some (uCode a b c d) else none
  | _ => none

/-- Read one rune and say how many further items it takes. A surrogate without its partner and a byte that
begins no encoding read as `runeError`. -/
def readChar (i : Item) (t : List Item) : Char × Nat :=
  match i with
  | .byte b =>
    match decodeRune (b :: contRun t) with
    | some c => (c, (encodeRune c).length - 1)
    | none => (runeError, 0)
  | .esc e => (escChar e, 0)
  | .u a b c d =>
    let n := uCode a b c d
    if n < 0xD800 ∨ 0xE000 ≤ n then (Char.ofNat n, 0)
    else
      match lowSurrogate t with
      | some m => if n < 0xDC00 then (Char.ofNat (0x10000 + (n - 0xD800) * 0x400 + (m - 0xDC00)), 1) else (runeError, 0)
      | none => (runeError, 0)

def unquoteItems (items : List Item) : List Char := chunks readChar 0 items
def Str.unquote (s : Str) : List Char := unquoteItems s.items

/-! ## Writing strings -/

def uByte (n : Nat) : Item := .u 48 48 (hexDigit (n / 16)) (hexDigit (n % 16))
def shortEscapes : List (Nat × UInt8) := [(34, 34), (92, 92), (8, 98), (12, 102), (10, 110), (13, 114), (9, 116)]

def quoteRune (c : Char) : List Item :=
  let n := c.toNat
  match shortEscapes.find? (·.1 == n) with
  | some (_, e) => [.esc e]
  | none =>
    if n < 0x20 ∨ n = 0x3C ∨ n = 0x3E ∨ n = 0x26 then [uByte n]
    else if n = 0x2028 then [.u 50 48 50 56]
    else if n = 0x2029 then [.u 50 48 50 57]
    else (encodeRune c).map .byte

def quoteUnit : Option Char → List Item
  | some c => quoteRune c
  | none => [.u 102 102 102 100]

def quoteItems (s : GoStr) : List Item := (decode s).flatMap quoteUnit

theorem hexVal_hexDigit (h : n < 16) : hexVal (hexDigit n) = n := by
  unfold hexDigit hexVal
  split
  · rw [toNat_ofNat (by omega)]
    split <;> omega
  · rw [toNat_ofNat (by omega)]
    rw [if_neg (by omega), if_neg (by omega)]
    omega

theorem isHex_hexDigit (h : n < 16) : isHex (hexDigit n) = true := by
  unfold hexDigit isHex
  split
  · rw [toNat_ofNat (by omega)]
    simp only [Bool.or_eq_true, Bool.and_eq_true, decide_eq_true_eq]
    omega
  · rw [toNat_ofNat (by omega)]
    simp only [Bool.or_eq_true, Bool.and_eq_true, decide_eq_true_eq]
    omega

theorem uByte_ok (h : n < 256) : (uByte n).ok = true := by
  have h1 := isHex_hexDigit (n := n / 16) (by omega)
  have h2 := isHex_hexDigit (n := n % 16) (by omega)
  have h3 : isHex 48 = true := by decide
  simp only [uByte, Item.ok, h1, h2, h3, Bool.and_self]

theorem readChar_uByte (h : n < 256) (t : List Item) : readChar (uByte n) t = (Char.ofNat n, 0) := by
  have hc : uCode 48 48 (hexDigit (n / 16)) (hexDigit (n % 16)) = n := by
    have h0 : hexVal 48 = 0 := by decide
    unfold uCode
    rw [hexVal_hexDigit (by omega), hexVal_hexDigit (by omega), h0]
    omega
  simp only [readChar, uByte, hc]
  exact if_pos (Or.inl (by omega))

theorem byte_ok_of_high (h : 0x80 ≤ b.toNat) : (Item.byte b).ok = true := by
  have hq : b ≠ quoteMark := by
    rintro rfl
    exact absurd h (by decide)
  have hs : b ≠ backslash := by
    rintro rfl
    exact absurd h (by decide)
  have h20 : 0x20 ≤ b.toNat := by omega
  simp only [Item.ok, Bool.and_eq_true, decide_eq_true_eq, bne_iff_ne]
  exact ⟨⟨h20, hq⟩, hs⟩

theorem isCont_high (h : isCont b = true) : 0x80 ≤ b.toNat := by
  simp only [isCont, Bool.and_eq_true, decide_eq_true_eq] at h
  exact h.1

theorem mem_shortEscapes : ∀ p ∈ shortEscapes, (Item.esc p.2).ok = true ∧ escChar p.2 = Char.ofNat p.1 := by
  decide

theorem quoteRune_ok (c : Char) : (quoteRune c).all Item.ok = true := by
  unfold quoteRune
  obtain ⟨b, t, hbt, hcn, hl, hh⟩ := encodeRune_shape c
  rw [hbt]
  dsimp only
  split
  · rename_i n e hf
    rw [all_cons, (mem_shortEscapes _ (mem_of_find?_eq_some hf)).1]
    rfl
  · rename_i hf
    have hp := List.find?_eq_none.1 hf
    have h34 : c.toNat ≠ 34 := fun h => hp (34, 34) (by decide) (beq_iff_eq.2 h.symm)
    have h92 : c.toNat ≠ 92 := fun h => hp (92, 92) (by decide) (beq_iff_eq.2 h.symm)
    split
    · rename_i hn
      have hlt : c.toNat < 256 := by omega
      rw [all_cons, uByte_ok hlt]
      rfl
    · rename_i hct
      split
      · decide
      split
      · decide
      rw [all_eq_true]
      intro i hi
      obtain ⟨x, hx, rfl⟩ := mem_map.1 hi
      rcases Nat.lt_or_ge c.toNat 0x80 with hc | hc
      · obtain ⟨rfl, rfl⟩ := hl hc
        rw [mem_singleton.1 hx]
        have hn : (UInt8.ofNat c.toNat).toNat = c.toNat := toNat_ofNat (by omega)
        have hq : UInt8.ofNat c.toNat ≠ quoteMark := fun h => h34 (by rw [← hn, h]; rfl)
        have hs : UInt8.ofNat c.toNat ≠ backslash := fun h => h92 (by rw [← hn, h]; rfl)
        have h20 : 0x20 ≤ c.toNat := by omega
        simp only [Item.ok, Bool.and_eq_true, decide_eq_true_eq, bne_iff_ne, hn]
        exact ⟨⟨h20, hq⟩, hs⟩
      · rcases mem_cons.1 hx with rfl | hx
        · have := hh hc
          exact byte_ok_of_high (by omega)
        · exact byte_ok_of_high (isCont_high (hcn x hx))

def quote (s : GoStr) : Str where
  items := quoteItems s
  ok := by
    rw [quoteItems, List.all_flatMap, List.all_eq_true]
    intro u _
    cases u with
    | none => decide
    | some c => exact quoteRune_ok c

theorem contRun_append {t : GoStr} (h : ∀ x ∈ t, isCont x = true) (rest : List Item) :
    contRun (t.map .byte ++ rest) = t ++ contRun rest := by
  induction t with
  | nil => rfl
  | cons b t ih =>
    rw [map_cons, cons_append, contRun, if_pos (h b mem_cons_self), ih fun x hx => h x (mem_cons_of_mem b hx)]
    rfl

theorem unquote_quoteRune (c : Char) (rest : List Item) : unquoteItems (quoteRune c ++ rest) = c :: unquoteItems rest := by
  have hc : ∀ n, c.toNat = n → c = Char.ofNat n := fun n h => by rw [← h, Char.ofNat_toNat]
  have ho : ∀ (i : Item) (c' : Char), readChar i rest = (c', 0) → c = c' →
      unquoteItems ([i] ++ rest) = c :: unquoteItems rest := by
    intro i c' h hcc
    rw [hcc]
    exact chunks_read (p := []) h
  unfold quoteRune
  dsimp only
  split
  · rename_i n e hf
    have hn := List.find?_some hf
    rw [beq_iff_eq] at hn
    exact ho _ _ rfl (by rw [(mem_shortEscapes _ (mem_of_find?_eq_some hf)).2, hn, Char.ofNat_toNat])
  split
  · exact ho _ _ (readChar_uByte (by omega) rest) (hc _ rfl)
  split
  · rename_i h
    exact ho _ _ rfl (hc _ h)
  split
  · rename_i h
    exact ho _ _ rfl (hc _ h)
  · obtain ⟨b, t, hbt, hcn, -⟩ := encodeRune_shape c
    have hr : readChar (.byte b) (t.map Item.byte ++ rest) = (c, (t.map Item.byte).length) := by
      simp only [readChar]
      rw [contRun_append hcn, ← cons_append, ← hbt, decodeRune_encodeRune]
      dsimp only
      rw [hbt, length_cons, Nat.add_sub_cancel, length_map]
    rw [hbt, map_cons]
    exact chunks_read hr

/-- **A string of runes survives being written and read.** -/
theorem unquote_quote (cs : List Char) : (quote (encode cs)).unquote = cs := by
  have hi : (quote (encode cs)).items = cs.flatMap quoteRune := by
    simp only [quote, quoteItems, decode_encode, flatMap_map, quoteUnit]
  rw [Str.unquote, hi]
  clear hi
  induction cs with
  | nil => rfl
  | cons c cs ih => rw [flatMap_cons, unquote_quoteRune, ih]

/-! ## Strings that are written as they are -/

def isPlain (b : UInt8) : Bool := 0x20 ≤ b.toNat && b.toNat < 0x80 && !([34, 92, 60, 62, 38].contains b)

theorem quoteRune_plain : ∀ n < 256, isPlain (.ofNat n) = true →
    encodeRune (Char.ofNat n) = [.ofNat n] ∧ quoteRune (Char.ofNat n) = [.byte (.ofNat n)] := by
  decide +kernel

theorem quoteRune_of_plain (h : isPlain b = true) :
    encodeRune (Char.ofNat b.toNat) = [b] ∧ quoteRune (Char.ofNat b.toNat) = [.byte b] := by
  have hb := quoteRune_plain b.toNat b.toNat_lt
  rw [UInt8.ofNat_toNat] at hb
  exact hb h

theorem encode_plain (h : ∀ b ∈ s, isPlain b = true) : encode (s.map fun b => Char.ofNat b.toNat) = s := by
  induction s with
  | nil => rfl
  | cons b s ih =>
    rw [forall_mem_cons] at h
    rw [encode, map_cons, flatMap_cons, (quoteRune_of_plain h.1).1, ← encode, ih h.2]
    rfl

theorem text_quote_plain (h : ∀ b ∈ s, isPlain b = true) : (quote s).text = quoteMark :: (s ++ [quoteMark]) := by
  have hi : (quote s).items = s.map .byte := by
    conv_lhs => rw [← encode_plain h]
    simp only [quote, quoteItems, decode_encode, flatMap_map, quoteUnit]
    induction s with
    | nil => rfl
    | cons b s ih =>
      rw [forall_mem_cons] at h
      rw [flatMap_cons, (quoteRune_of_plain h.1).2, ih h.2]
      rfl
  rw [Str.text, itemsText, hi, flatMap_map]
  simp [Item.text, flatMap_singleton']

/-! ## Escaping a literal that is already written -/

def lineSeparator : List Item → Option UInt8
  | .byte x :: .byte y :: _ => if x = 0x80 ∧ y = 0xA8 then some 56 else if x = 0x80 ∧ y = 0xA9 then some 57 else none
  | _ => none

def escapeItem (i : Item) (t : List Item) : Item × Nat :=
  match i with
  | .byte b =>
    if b = 0x3C ∨ b = 0x3E ∨ b = 0x26 then (uByte b.toNat, 0)
    else if b = 0xE2 then
      match lineSeparator t with
      | some d => (.u 50 48 50 d, 2)
      | none => (.byte b, 0)
    else (.byte b, 0)
  | i => (i, 0)

def escapeItems (items : List Item) : List Item := chunks escapeItem 0 items

theorem escapeItems_cons (i : Item) (t : List Item) :
    escapeItems (i :: t) = (escapeItem i t).1 :: chunks escapeItem (escapeItem i t).2 t := rfl

theorem lineSeparator_some {t : List Item} (h : lineSeparator t = some d) :
    ∃ y r, t = .byte 0x80 :: .byte y :: r ∧ (y = 0xA8 ∧ d = 56 ∨ y = 0xA9 ∧ d = 57) := by
  unfold lineSeparator at h
  split at h
  · rename_i x y r
    split at h
    · rename_i hxy
      cases h
      exact ⟨y, r, by rw [hxy.1], Or.inl ⟨hxy.2, rfl⟩⟩
    · split at h
      · rename_i hxy
        cases h
        exact ⟨y, r, by rw [hxy.1], Or.inr ⟨hxy.2, rfl⟩⟩
      · cases h
  · cases h

theorem escapeItem_cases (i : Item) (t : List Item) : escapeItem i t = (i, 0) ∨
    (∃ b, i = .byte b ∧ b.toNat < 0x80 ∧ escapeItem i t = (uByte b.toNat, 0)) ∨
    (∃ y d r, i = .byte 0xE2 ∧ t = .byte 0x80 :: .byte y :: r ∧ (y = 0xA8 ∧ d = 56 ∨ y = 0xA9 ∧ d = 57) ∧
      escapeItem i t = (.u 50 48 50 d, 2)) := by
  cases i with
  | esc e | u a b c d => exact Or.inl rfl
  | byte b =>
    simp only [escapeItem]
    split
    · rename_i hb
      refine Or.inr (Or.inl ⟨b, rfl, ?_, rfl⟩)
      rcases hb with rfl | rfl | rfl <;> decide
    · split
      · rename_i hb
        split
        · rename_i d hd
          obtain ⟨y, r, ht, hy⟩ := lineSeparator_some hd
          exact Or.inr (Or.inr ⟨y, d, r, by rw [hb], ht, hy, rfl⟩)
        · exact Or.inl rfl
      · exact Or.inl rfl

theorem escapeItem_ok (h : i.ok = true) (t : List Item) : (escapeItem i t).1.ok = true := by
  rcases escapeItem_cases i t with he | ⟨b, -, hb, he⟩ | ⟨y, d, r, -, -, hy, he⟩
  · rw [he]
    exact h
  · rw [he]
    exact uByte_ok (by omega)
  · rw [he]
    rcases hy with ⟨-, rfl⟩ | ⟨-, rfl⟩ <;> decide

def Str.escapeHTML (s : Str) : Str where
  items := escapeItems s.items
  ok := by
    rw [List.all_eq_true]
    refine chunks_forall fun i hi t => escapeItem_ok ?_ t
    exact List.all_eq_true.1 s.ok i hi

def Stepped : Item → Prop
  | .byte b => isCont b = true
  | .esc _ => False
  | .u .. => True

theorem escapeItem_of_stepped (h : Stepped i) (t : List Item) : escapeItem i t = (i, 0) := by
  rcases escapeItem_cases i t with he | ⟨b, rfl, hb, -⟩ | ⟨y, d, r, rfl, -⟩
  · exact he
  · have := isCont_high h
    omega
  · exact absurd h (by unfold Stepped; decide)

theorem contRun_escapeItems (l : List Item) : contRun (escapeItems l) = contRun l := by
  induction l with
  | nil => rfl
  | cons i t ih =>
    rw [escapeItems_cons]
    rcases escapeItem_cases i t with he | ⟨b, rfl, hb, he⟩ | ⟨y, d, r, rfl, -, -, he⟩
    · rw [he]
      cases i with
      | byte b => rw [contRun, contRun, ← ih, escapeItems]
      | esc e | u a b c d => rfl
    · have hc : isCont b = false := by
        simp only [isCont, Bool.and_eq_false_iff, decide_eq_false_iff_not]
        omega
      rw [he, contRun, hc]
      rfl
    · rw [he]
      rfl

theorem lowSurrogate_escapeItems (l : List Item) : lowSurrogate (escapeItems l) = lowSurrogate l := by
  cases l with
  | nil => rfl
  | cons i t =>
    rw [escapeItems_cons]
    rcases escapeItem_cases i t with he | ⟨b, rfl, hb, he⟩ | ⟨y, d, r, rfl, -, hy, he⟩
    · rw [he]
      cases i <;> rfl
    · -- an escaped ASCII byte is no surrogate
      rw [he]
      simp only [uByte, lowSurrogate]
      rw [if_neg]
      have h0 : hexVal 48 = 0 := by decide
      unfold uCode
      rw [hexVal_hexDigit (by omega), hexVal_hexDigit (by omega), h0]
      omega
    · rw [he]
      rcases hy with ⟨-, rfl⟩ | ⟨-, rfl⟩ <;> rfl

theorem readChar_escapeItems (i : Item) (t : List Item) : readChar i (escapeItems t) = readChar i t := by
  cases i with
  | byte b => simp only [readChar, contRun_escapeItems]
  | esc e => rfl
  | u a b c d => simp only [readChar, lowSurrogate_escapeItems]

theorem contRun_stepped (t : List Item) : ∀ i ∈ t.take (contRun t).length, Stepped i := by
  induction t with
  | nil => simp [contRun]
  | cons i t ih =>
    cases i with
    | byte b =>
      rw [contRun]
      split
      · rename_i hb
        rw [length_cons, take_succ_cons, forall_mem_cons]
        exact ⟨hb, ih⟩
      · simp
    | esc e | u a b c d => simp [contRun]

theorem readChar_stepped (i : Item) (t : List Item) : ∀ j ∈ t.take (readChar i t).2, Stepped j := by
  cases i with simp only [readChar]
  | byte b =>
    split
    · rename_i c hc
      have hl := (encodeRune_of_decodeRune hc).length_le
      rw [length_cons] at hl
      intro j hj
      exact contRun_stepped t j (take_subset_take_left t (by omega) hj)
    · simp
  | esc e => simp
  | u a b c d =>
    split
    · simp
    split
    · rename_i m hm
      split
      · -- the low surrogate is itself an escape
        unfold lowSurrogate at hm
        split at hm
        · simp [Stepped]
        · cases hm
      · simp
    · simp

theorem readChar_lineSeparator {y : UInt8} (hy : y = 0xA8 ∧ d = 56 ∨ y = 0xA9 ∧ d = 57) (r t : List Item) :
    ∃ c, readChar (.byte 0xE2) (.byte 0x80 :: .byte y :: r) = (c, 2) ∧ readChar (.u 50 48 50 d) t = (c, 0) := by
  obtain ⟨c, he, hu⟩ : ∃ c, encodeRune c = [0xE2, 0x80, y] ∧ readChar (.u 50 48 50 d) t = (c, 0) := by
    rcases hy with ⟨rfl, rfl⟩ | ⟨rfl, rfl⟩
    · exact ⟨Char.ofNat 0x2028, by decide, rfl⟩
    · exact ⟨Char.ofNat 0x2029, by decide, rfl⟩
  refine ⟨c, ?_, hu⟩
  have hc : contRun (.byte 0x80 :: .byte y :: r) = 0x80 :: y :: contRun r := by
    rcases hy with ⟨rfl, -⟩ | ⟨rfl, -⟩ <;> rfl
  have hd : decodeRune (0xE2 :: 0x80 :: y :: contRun r) = some c := by
    have := decodeRune_encodeRune c (contRun r)
    rwa [he] at this
  simp only [readChar, hc, hd, he]
  rfl

theorem readChar_ascii (hb : b.toNat < 0x80) (t : List Item) : readChar (.byte b) t = (Char.ofNat b.toNat, 0) := by
  have hv : (Char.ofNat b.toNat).toNat = b.toNat := toNat_ofNat_ascii hb
  obtain ⟨x, r, hxr, -, hl, -⟩ := encodeRune_shape (Char.ofNat b.toNat)
  obtain ⟨rfl, rfl⟩ := hl (by omega)
  rw [hv, UInt8.ofNat_toNat] at hxr
  have hd : decodeRune (b :: contRun t) = some (Char.ofNat b.toNat) := by
    have := decodeRune_encodeRune (Char.ofNat b.toNat) (contRun t)
    rwa [hxr] at this
  simp only [readChar, hd, hxr]
  rfl

theorem unquote_escapeItems_aux (n : Nat) : ∀ (l : List Item) (k : Nat), l.length ≤ n → (∀ i ∈ l.take k, Stepped i) →
    chunks readChar k (escapeItems l) = chunks readChar k l := by
  induction n with
  | zero =>
    intro l k hl _
    rw [length_eq_zero_iff.1 (Nat.le_zero.1 hl)]
    rfl
  | succ n ih =>
    intro l k hl hk
    cases l with
    | nil => rfl
    | cons i t =>
      rw [length_cons] at hl
      cases k with
      | succ k =>
        rw [take_succ_cons, forall_mem_cons] at hk
        rw [escapeItems_cons, escapeItem_of_stepped hk.1]
        exact ih t k (by omega) hk.2
      | zero =>
        rw [escapeItems_cons]
        rcases escapeItem_cases i t with he | ⟨b, rfl, hb, he⟩ | ⟨y, d, r, rfl, rfl, hy, he⟩
        · rw [he, chunks, chunks]
          have hi := readChar_escapeItems i t
          rw [escapeItems] at hi
          rw [hi, ← escapeItems, ih t _ (by omega) (readChar_stepped i t)]
        · rw [he, chunks, chunks, readChar_uByte (by omega), readChar_ascii hb, ← escapeItems, ih t 0 (by omega) (by simp)]
        · obtain ⟨c, hc, hu⟩ := readChar_lineSeparator hy r (escapeItems r)
          simp only [length_cons] at hl
          rw [he]
          change chunks readChar 0 (.u 50 48 50 d :: escapeItems r) = _
          rw [chunks, hu, chunks, hc, ih r 0 (by omega) (by simp)]
          rfl

theorem unquote_escapeHTML (s : Str) : s.escapeHTML.unquote = s.unquote :=
  unquote_escapeItems_aux s.items.length s.items 0 le_rfl (by simp)

end Sukko.Json
