import Sukko.Lib.Json.Tree
/-
# Parsing JSON

A recursive-descent parser for what `encoding/json` accepts: any JSON value between white space, nested at most 10000 deep. A
text parses to a tree iff it is the text of that tree (`parse_iff`), so the fuel is enough.
-/

namespace Sukko.Json
open List Option

/-! ## Runs of bytes -/

def Stops (p : UInt8 → Bool) (s : GoStr) : Prop := ∀ b ∈ s.head?, p b = false

variable {p : UInt8 → Bool}

theorem stops_cons {b : UInt8} {s : GoStr} (h : p b = false) : Stops p (b :: s) := by
  simpa [Stops] using h

theorem takeWhile_run {w s : GoStr} (hw : w.all p = true) (hs : Stops p s) : (w ++ s).takeWhile p = w := by
  rw [takeWhile_append_of_pos (all_eq_true.1 hw)]
  cases s with
  | nil => rw [takeWhile_nil, append_nil]
  | cons b s =>
    have hb : ¬ p b = true := by simpa using hs b rfl
    rw [takeWhile_cons_of_neg hb, append_nil]

theorem dropWhile_run {w s : GoStr} (hw : w.all p = true) (hs : Stops p s) : (w ++ s).dropWhile p = s := by
  rw [dropWhile_append_of_pos (all_eq_true.1 hw)]
  cases s with
  | nil => rfl
  | cons b s =>
    have hb : ¬ p b = true := by simpa using hs b rfl
    rw [dropWhile_cons_of_neg hb]

/-! ## The scanner -/

def scanSpace (s : GoStr) : Space × GoStr :=
  (⟨s.takeWhile isSpace, List.all_takeWhile⟩, s.dropWhile isSpace)

def scanNumber (s : GoStr) : Option (Number × GoStr) :=
  if h : ((s.takeWhile isNumByte).all isNumByte && validNumber (s.takeWhile isNumByte)) = true then
    some (⟨s.takeWhile isNumByte, h⟩, s.dropWhile isNumByte)
  else none

def scanAtom (s : GoStr) : Option (Value × GoStr) :=
  if (str "null").isPrefixOf s then some (.null, s.drop 4)
  else if (str "true").isPrefixOf s then some (.bool true, s.drop 4)
  else if (str "false").isPrefixOf s then some (.bool false, s.drop 5)
  else (scanNumber s).map fun r => (.num r.1, r.2)

def scanKey (s : GoStr) : Option (Key × GoStr) :=
  let (w, s) := scanSpace s
  match s with
  | [] => none
  | b :: s =>
    if b = quoteMark then
      match scanStr s with
      | none => none
      | some (name, s) =>
        let (w₁, s) := scanSpace s
        match s with
        | [] => none
        | c :: s =>
          if c = colonMark then
            let (w₂, s) := scanSpace s
            some (⟨w, name, w₁, w₂⟩, s)
          else none
    else none

def scanLead : (k : Kind) → GoStr → Option (Lead k × GoStr)
  | .arr, s => some (scanSpace s)
  | .obj, s => scanKey s

def kindOf (b : UInt8) : Option Kind :=
  if b = Kind.arr.openByte then some .arr else if b = Kind.obj.openByte then some .obj else none

mutual

def scanValue : Nat → Nat → GoStr → Option (Value × GoStr)
  | 0, _, _ => none
  | _ + 1, _, [] => none
  | fuel + 1, depth, b :: s =>
    if b = quoteMark then (scanStr s).map fun r => (.str r.1, r.2)
    else
      match kindOf b with
      | none => scanAtom (b :: s)
      | some k =>
        match depth with
        | 0 => none
        | depth + 1 =>
          match scanSpace s with
          | (_, []) => none
          | (w, c :: rest) =>
            if c = k.closeByte then some (.empty k w, rest)
            else (scanEntries fuel depth k s).map fun r => (.coll k r.1, r.2)

def scanEntries : Nat → Nat → (k : Kind) → GoStr → Option (Entries k × GoStr)
  | 0, _, _, _ => none
  | fuel + 1, depth, k, s =>
    match scanLead k s with
    | none => none
    | some (l, s) =>
      match scanValue fuel depth s with
      | none => none
      | some (v, s) =>
        match scanSpace s with
        | (_, []) => none
        | (w, c :: rest) =>
          if c = comma then (scanEntries fuel depth k rest).map fun r => (.cons l v w r.1, r.2)
          else if c = k.closeByte then some (.last l v w, rest)
          else none

end

def maxNestingDepth : Nat := 10000

def parse (s : GoStr) : Option Value :=
  match scanValue (2 * s.length) maxNestingDepth (scanSpace s).2 with
  | none => none
  | some (v, rest) => if rest.all isSpace then some v else none

/-! ## The parts of a text -/

theorem scanSpace_text (w : Space) {s : GoStr} (hs : Stops isSpace s) : scanSpace (w.bytes ++ s) = (w, s) := by
  simp only [scanSpace, takeWhile_run w.ok hs, dropWhile_run w.ok hs]

theorem scanSpace_split (s : GoStr) : ∃ w rest, scanSpace s = (w, rest) ∧ s = w.bytes ++ rest :=
  ⟨_, _, rfl, takeWhile_append_dropWhile.symm⟩

theorem scanNumber_text (n : Number) {s : GoStr} (hs : Stops isNumByte s) : scanNumber (n.raw ++ s) = some (n, s) := by
  have ha := (Bool.and_eq_true _ _ ▸ n.ok).1
  simp only [scanNumber, takeWhile_run ha hs, dropWhile_run ha hs]
  exact dif_pos n.ok

variable {s rest : GoStr}

theorem scanNumber_sound {n : Number} (h : scanNumber s = some (n, rest)) : s = n.raw ++ rest := by
  unfold scanNumber at h
  split at h
  · cases h
    exact takeWhile_append_dropWhile.symm
  · cases h

variable {b : UInt8}

theorem not_numByte_of_space (h : isSpace b = true) : isNumByte b = false := by
  simp only [isSpace, Bool.or_eq_true, beq_iff_eq] at h
  rcases h with ((rfl | rfl) | rfl) | rfl <;> decide

theorem Number.raw_cons (n : Number) : ∃ b t, n.raw = b :: t ∧ isNumByte b = true := by
  obtain ⟨ha, hv⟩ := Bool.and_eq_true _ _ ▸ n.ok
  cases hr : n.raw with
  | nil =>
    rw [hr] at hv
    exact absurd hv (by decide)
  | cons b t =>
    rw [hr, all_cons, Bool.and_eq_true] at ha
    exact ⟨b, t, rfl, ha.1⟩

structure Starts (b : UInt8) : Prop where
  space : isSpace b = false
  close : ∀ k : Kind, b ≠ k.closeByte

theorem starts_of_numByte (h : isNumByte b = true) : Starts b where
  space := by
    by_contra hs
    rw [Bool.not_eq_false] at hs
    rw [not_numByte_of_space hs] at h
    cases h
  close k := by
    rintro rfl
    cases k <;> exact absurd h (by decide)

theorem Value.text_cons (v : Value) : ∃ b t, v.text = b :: t ∧ Starts b := by
  have hl : ∀ b : UInt8, isSpace b = false → b ≠ 93 → b ≠ 125 → Starts b := by
    intro b hs ha ho
    refine ⟨hs, fun k => ?_⟩
    cases k
    · exact ha
    · exact ho
  cases v with
  | null => exact ⟨110, _, rfl, hl _ rfl (by decide) (by decide)⟩
  | bool b =>
    cases b
    · exact ⟨102, _, rfl, hl _ rfl (by decide) (by decide)⟩
    · exact ⟨116, _, rfl, hl _ rfl (by decide) (by decide)⟩
  | num n =>
    obtain ⟨b, t, hr, hb⟩ := n.raw_cons
    exact ⟨b, t, hr, starts_of_numByte hb⟩
  | str s => exact ⟨34, _, rfl, hl _ rfl (by decide) (by decide)⟩
  | empty k w | coll k es => cases k <;> exact ⟨_, _, rfl, hl _ rfl (by decide) (by decide)⟩

theorem stops_text (v : Value) (rest : GoStr) : Stops isSpace (v.text ++ rest) := by
  obtain ⟨b, t, hv, hb⟩ := v.text_cons
  rw [hv]
  exact stops_cons hb.space

theorem stops_number {c : UInt8} (w : Space) (rest : GoStr) (hc : isNumByte c = false) :
    Stops isNumByte (w.bytes ++ c :: rest) := by
  obtain ⟨bytes, hok⟩ := w
  cases bytes with
  | nil => exact stops_cons hc
  | cons b t =>
    rw [all_cons, Bool.and_eq_true] at hok
    exact stops_cons (not_numByte_of_space hok.1)

theorem scanKey_text (key : Key) {s : GoStr} (hs : Stops isSpace s) : scanKey (Lead.text .obj key ++ s) = some (key, s) := by
  have ht : Lead.text .obj key ++ s = key.before.bytes ++ quoteMark :: (itemsText key.name.items ++
      (key.colon.bytes ++ colonMark :: (key.after.bytes ++ s))) := by
    simp [Lead.text, Str.text]
  have hq : Stops isSpace (quoteMark :: (itemsText key.name.items ++
      (key.colon.bytes ++ colonMark :: (key.after.bytes ++ s)))) := stops_cons rfl
  have hc : Stops isSpace (colonMark :: (key.after.bytes ++ s)) := stops_cons rfl
  rw [ht]
  simp only [scanKey, scanSpace_text key.before hq, if_true, scanStr_text, scanSpace_text key.colon hc,
    scanSpace_text key.after hs]

theorem scanKey_sound {key : Key} (h : scanKey s = some (key, rest)) : s = Lead.text .obj key ++ rest := by
  obtain ⟨w, s₁, hw, h1⟩ := scanSpace_split s
  unfold scanKey at h
  rw [hw] at h
  dsimp only at h
  split at h
  · cases h
  rename_i b s₁
  split at h
  · rename_i hq
    split at h
    · cases h
    rename_i name s₂ hn
    have h2 := scanStr_sound hn
    obtain ⟨w₁, s₃, hw₁, h3⟩ := scanSpace_split s₂
    rw [hw₁] at h
    dsimp only at h
    split at h
    · cases h
    rename_i c s₃
    split at h
    · rename_i hc
      obtain ⟨w₂, s₄, hw₂, h4⟩ := scanSpace_split s₃
      rw [hw₂] at h
      cases h
      rw [h1, h2, h3, h4, hq, hc]
      simp [Lead.text, Str.text]
    · cases h
  · cases h

theorem scanLead_text (k : Kind) (l : Lead k) {s : GoStr} (hs : Stops isSpace s) :
    scanLead k (l.text k ++ s) = some (l, s) := by
  cases k with
  | arr => exact congrArg some (scanSpace_text l hs)
  | obj => exact scanKey_text l hs

theorem scanLead_sound {k : Kind} {l : Lead k} (h : scanLead k s = some (l, rest)) : s = l.text k ++ rest := by
  cases k with
  | arr =>
    obtain ⟨w, r, hw, hs⟩ := scanSpace_split s
    rw [scanLead, hw] at h
    cases h
    exact hs
  | obj => exact scanKey_sound h

theorem scanSpace_lead (k : Kind) (l : Lead k) (v : Value) (rest : GoStr) :
    ∃ w c r, scanSpace (l.text k ++ (v.text ++ rest)) = (w, c :: r) ∧ c ≠ k.closeByte := by
  obtain ⟨b, t, hv, hb⟩ := v.text_cons
  cases k with
  | arr =>
    refine ⟨l, b, t ++ rest, ?_, hb.close .arr⟩
    have h := scanSpace_text l (stops_text v rest)
    rw [hv] at h ⊢
    exact h
  | obj =>
    refine ⟨l.before, quoteMark, itemsText l.name.items ++ (l.colon.bytes ++ colonMark :: (l.after.bytes ++
      (v.text ++ rest))), ?_, by decide⟩
    have h := scanSpace_text l.before (s := quoteMark :: (itemsText l.name.items ++ (l.colon.bytes ++ colonMark ::
      (l.after.bytes ++ (v.text ++ rest))))) (stops_cons rfl)
    rw [← h]
    simp [Lead.text, Str.text]

theorem scanSpace_entries {k : Kind} (es : Entries k) (rest : GoStr) :
    ∃ w c r, scanSpace (es.text ++ rest) = (w, c :: r) ∧ c ≠ k.closeByte := by
  cases es with
  | last l v w | cons l v w es =>
    rw [Entries.text, append_assoc, append_assoc]
    exact scanSpace_lead k l v _

/-! ## Every text of a tree parses to the tree -/

theorem kindOf_openByte (k : Kind) : kindOf k.openByte = some k ∧ k.openByte ≠ quoteMark := by
  cases k <;> decide

theorem kindOf_some {k : Kind} (h : kindOf b = some k) : b = k.openByte := by
  unfold kindOf at h
  split at h
  · rename_i hb
    cases h
    exact hb
  · split at h
    · rename_i hb
      cases h
      exact hb
    · cases h

theorem scanAtom_number (n : Number) {s : GoStr} (hs : Stops isNumByte s) : scanAtom (n.raw ++ s) = some (.num n, s) := by
  obtain ⟨b, t, hr, hb⟩ := n.raw_cons
  have hl : ∀ (c : UInt8) (r : GoStr), isNumByte c = false → (c :: r).isPrefixOf (n.raw ++ s) = false := by
    intro c r hc
    have hne : (c == b) = false := by
      rw [beq_eq_false_iff_ne]
      rintro rfl
      rw [hb] at hc
      cases hc
    rw [hr, cons_append, List.isPrefixOf, hne, Bool.false_and]
  have hn : (str "null").isPrefixOf (n.raw ++ s) = false := hl 110 _ (by decide)
  have ht : (str "true").isPrefixOf (n.raw ++ s) = false := hl 116 _ (by decide)
  have hf : (str "false").isPrefixOf (n.raw ++ s) = false := hl 102 _ (by decide)
  simp only [scanAtom, hn, ht, hf, Bool.false_eq_true, if_false, scanNumber_text n hs, map_some]

theorem scanValue_atom {fuel depth : Nat} {s : GoStr} (hq : b ≠ quoteMark) (hk : kindOf b = none) :
    scanValue (fuel + 1) depth (b :: s) = scanAtom (b :: s) := by
  simp only [scanValue, if_neg hq, hk]

theorem not_numByte_close (k : Kind) : isNumByte k.closeByte = false ∧ isSpace k.closeByte = false ∧ k.closeByte ≠ comma := by
  cases k <;> decide

theorem scanValue_number {fuel depth : Nat} (n : Number) {s : GoStr} (hs : Stops isNumByte s) :
    scanValue (fuel + 1) depth (n.raw ++ s) = some (.num n, s) := by
  obtain ⟨b, t, hr, hb⟩ := n.raw_cons
  have hq : b ≠ quoteMark := by
    rintro rfl
    exact absurd hb (by decide)
  have hk : kindOf b = none := by
    cases h : kindOf b with
    | none => rfl
    | some k =>
      rw [kindOf_some h] at hb
      cases k <;> exact absurd hb (by decide)
  rw [← scanAtom_number n hs, hr]
  exact scanValue_atom hq hk

mutual

theorem scanValue_text (v : Value) (fuel depth : Nat) (rest : GoStr) (hf : v.size ≤ fuel) (hd : v.depth ≤ depth)
    (hr : Stops isNumByte rest) : scanValue fuel depth (v.text ++ rest) = some (v, rest) := by
  obtain ⟨fuel, rfl⟩ : ∃ f, fuel = f + 1 := by
    cases fuel with
    | zero => cases v <;> simp [Value.size] at hf
    | succ f => exact ⟨f, rfl⟩
  match v with
  | .null => rfl
  | .bool true => rfl
  | .bool false => rfl
  | .num n => exact scanValue_number n hr
  | .str s =>
    rw [Value.text, Str.text, cons_append]
    simp only [scanValue, if_true, scanStr_text, map_some]
  | .empty k w =>
    obtain ⟨depth, rfl⟩ : ∃ d, depth = d + 1 := Nat.exists_eq_add_of_le' hd
    have hcl : Stops isSpace (k.closeByte :: rest) := stops_cons (not_numByte_close k).2.1
    simp only [Value.text, cons_append, append_assoc, nil_append, scanValue,
      if_neg (kindOf_openByte k).2, (kindOf_openByte k).1, scanSpace_text w hcl, if_true]
  | .coll k es =>
    obtain ⟨depth, rfl⟩ : ∃ d, depth = d + 1 := by
      rw [Value.depth] at hd
      exact ⟨depth - 1, by omega⟩
    rw [Value.depth] at hd
    rw [Value.size] at hf
    obtain ⟨w, c, r, hsp, hc⟩ := scanSpace_entries es rest
    have hes := scanEntries_text es fuel depth rest (by omega) (by omega)
    simp only [Value.text, cons_append, scanValue, if_neg (kindOf_openByte k).2, (kindOf_openByte k).1, hsp,
      if_neg hc, hes, map_some]

theorem scanEntries_text {k : Kind} (es : Entries k) (fuel depth : Nat) (rest : GoStr) (hf : es.size ≤ fuel)
    (hd : es.depth ≤ depth) : scanEntries fuel depth k (es.text ++ rest) = some (es, rest) := by
  obtain ⟨hn, hs, hc⟩ := not_numByte_close k
  match es with
  | .last l v w =>
    obtain ⟨fuel, rfl⟩ : ∃ f, fuel = f + 1 := by
      rw [Entries.size] at hf
      exact ⟨fuel - 1, by omega⟩
    rw [Entries.size] at hf
    rw [Entries.depth] at hd
    have hv := scanValue_text v fuel depth (w.bytes ++ k.closeByte :: rest) (by omega) hd (stops_number w rest hn)
    simp only [Entries.text, append_assoc, cons_append, nil_append, scanEntries,
      scanLead_text k l (stops_text v _), hv, scanSpace_text w (stops_cons hs), if_neg hc, if_true]
  | .cons l v w es =>
    obtain ⟨fuel, rfl⟩ : ∃ f, fuel = f + 1 := by
      rw [Entries.size] at hf
      exact ⟨fuel - 1, by omega⟩
    rw [Entries.size] at hf
    rw [Entries.depth] at hd
    have hv := scanValue_text v fuel depth (w.bytes ++ comma :: (es.text ++ rest)) (by omega) (by omega)
      (stops_number w _ (by decide))
    have hes := scanEntries_text es fuel depth rest (by omega) (by omega)
    simp only [Entries.text, append_assoc, cons_append, scanEntries, scanLead_text k l (stops_text v _), hv,
      scanSpace_text w (s := comma :: (es.text ++ rest)) (stops_cons rfl), if_true, hes, map_some]

end

/-! ## What parses is the text of a tree -/

theorem drop_of_isPrefixOf {p s : GoStr} {n : Nat} (hn : p.length = n) (h : p.isPrefixOf s = true) : s = p ++ s.drop n := by
  subst hn
  exact (prefix_iff_eq_append.1 (List.isPrefixOf_iff_prefix.1 h)).symm

theorem scanAtom_sound {s rest : GoStr} {v : Value} (h : scanAtom s = some (v, rest)) : s = v.text ++ rest ∧ v.depth = 0 := by
  unfold scanAtom at h
  split at h
  · rename_i hp
    cases h
    exact ⟨drop_of_isPrefixOf rfl hp, rfl⟩
  · split at h
    · rename_i hp
      cases h
      exact ⟨drop_of_isPrefixOf rfl hp, rfl⟩
    · split at h
      · rename_i hp
        cases h
        exact ⟨drop_of_isPrefixOf rfl hp, rfl⟩
      · obtain ⟨⟨n, r⟩, hn, hv⟩ := map_eq_some_iff.1 h
        cases hv
        exact ⟨scanNumber_sound hn, rfl⟩

theorem scan_sound (fuel : Nat) :
    (∀ depth s v rest, scanValue fuel depth s = some (v, rest) → s = v.text ++ rest ∧ v.depth ≤ depth) ∧
    (∀ depth k s (es : Entries k) rest, scanEntries fuel depth k s = some (es, rest) →
      s = es.text ++ rest ∧ es.depth ≤ depth) := by
  induction fuel with
  | zero =>
    refine ⟨?_, ?_⟩
    · intro depth s v rest h
      cases h
    · intro depth k s es rest h
      cases h
  | succ fuel ih =>
    obtain ⟨ihv, ihe⟩ := ih
    refine ⟨?_, ?_⟩
    · intro depth s v rest h
      cases s with
      | nil => cases h
      | cons b s =>
        rw [scanValue] at h
        split at h
        · rename_i hq
          obtain ⟨⟨t, r⟩, ht, hv⟩ := map_eq_some_iff.1 h
          cases hv
          rw [Value.text, Str.text, hq, scanStr_sound ht]
          exact ⟨rfl, Nat.zero_le _⟩
        · split at h
          · obtain ⟨htx, hd⟩ := scanAtom_sound h
            exact ⟨htx, by omega⟩
          · rename_i k hk
            split at h
            · cases h
            rename_i depth
            obtain ⟨w, r, hw, hs⟩ := scanSpace_split s
            rw [hw] at h
            split at h
            · cases h
            rename_i c r' hc
            cases hc
            split at h
            · rename_i hcl
              cases h
              rw [hs, kindOf_some hk, hcl]
              refine ⟨by simp [Value.text], ?_⟩
              rw [Value.depth]
              omega
            · obtain ⟨⟨es, r''⟩, hes, hv⟩ := map_eq_some_iff.1 h
              cases hv
              obtain ⟨htx, hd⟩ := ihe depth k s es _ hes
              rw [htx, kindOf_some hk]
              exact ⟨by simp [Value.text], Nat.succ_le_succ hd⟩
    · intro depth k s es rest h
      rw [scanEntries] at h
      split at h
      · cases h
      rename_i l s₁ hl
      split at h
      · cases h
      rename_i v s₂ hv
      obtain ⟨hvt, hvd⟩ := ihv depth s₁ v s₂ hv
      obtain ⟨w, r, hw, hs⟩ := scanSpace_split s₂
      rw [hw] at h
      split at h
      · cases h
      rename_i c r' hc
      cases hc
      split at h
      · rename_i hcm
        obtain ⟨⟨es', r''⟩, hes, he⟩ := map_eq_some_iff.1 h
        cases he
        obtain ⟨htx, hd⟩ := ihe depth k _ es' _ hes
        rw [scanLead_sound hl, hvt, hs, htx, hcm]
        exact ⟨by simp [Entries.text], max_le hvd hd⟩
      · split at h
        · rename_i hcl
          cases h
          rw [scanLead_sound hl, hvt, hs, hcl]
          exact ⟨by simp [Entries.text], hvd⟩
        · cases h

/-! ## The parser -/

mutual

theorem Value.size_le (v : Value) : v.size ≤ 2 * v.text.length := by
  match v with
  | .null | .bool true | .bool false => decide
  | .num n =>
    obtain ⟨b, t, hr, -⟩ := n.raw_cons
    simp only [Value.size, Value.text, hr, length_cons]
    omega
  | .str s =>
    simp only [Value.size, Value.text, Str.text, length_cons]
    omega
  | .empty k w =>
    simp only [Value.size, Value.text, length_cons]
    omega
  | .coll k es =>
    have := es.size_le
    rw [Value.size, Value.text, length_cons]
    omega

theorem Entries.size_le {k : Kind} (es : Entries k) : es.size ≤ 2 * es.text.length := by
  match es with
  | .last l v w =>
    have := v.size_le
    simp only [Entries.size, Entries.text, length_append, length_cons]
    omega
  | .cons l v w es =>
    have := v.size_le
    have := es.size_le
    simp only [Entries.size, Entries.text, length_append, length_cons]
    omega

end

theorem stops_space (w : Space) : Stops isNumByte w.bytes := by
  obtain ⟨bytes, hok⟩ := w
  cases bytes with
  | nil => simp [Stops]
  | cons b t =>
    rw [all_cons, Bool.and_eq_true] at hok
    exact stops_cons (not_numByte_of_space hok.1)

/-- **The parser accepts exactly the texts of trees**, between white space and not nested too deep, and returns
the tree. -/
theorem parse_iff {s : GoStr} {v : Value} :
    parse s = some v ↔ (∃ w w' : Space, s = w.bytes ++ (v.text ++ w'.bytes)) ∧ v.depth ≤ maxNestingDepth := by
  constructor
  · intro h
    unfold parse at h
    obtain ⟨w, r, hw, hs⟩ := scanSpace_split s
    rw [hw] at h
    split at h
    · cases h
    rename_i v' rest hv
    split at h
    · rename_i hr
      cases h
      obtain ⟨ht, hdp⟩ := (scan_sound _).1 _ _ _ _ hv
      exact ⟨⟨w, ⟨rest, hr⟩, by rw [hs, ← ht]⟩, hdp⟩
    · cases h
  · rintro ⟨⟨w, w', rfl⟩, hd⟩
    have hsz := v.size_le
    have hv := scanValue_text v (2 * (w.bytes ++ (v.text ++ w'.bytes)).length) maxNestingDepth w'.bytes
      (by simp only [length_append]; omega) hd (stops_space w')
    unfold parse
    rw [scanSpace_text w (stops_text v _), hv]
    exact if_pos w'.ok

theorem parse_head {b : UInt8} {s : GoStr} {v : Value} (hb : isSpace b = false) (h : parse (b :: s) = some v) :
    ∃ w' : Space, b :: s = v.text ++ w'.bytes := by
  obtain ⟨⟨w, w', ht⟩, -⟩ := parse_iff.1 h
  obtain ⟨bytes, hok⟩ := w
  cases bytes with
  | nil => exact ⟨w', ht⟩
  | cons c r =>
    cases ht
    rw [all_cons, Bool.and_eq_true, hb] at hok
    cases hok.1

theorem parse_text {v v' : Value} (h : parse v.text = some v') : v' = v := by
  obtain ⟨w', ht⟩ : ∃ w' : Space, v.text = v'.text ++ w'.bytes := by
    obtain ⟨b, t, hv, hb⟩ := v.text_cons
    rw [hv] at h ⊢
    exact parse_head hb.space h
  have hd := Nat.le_max_left v.depth v'.depth
  have hd' := Nat.le_max_right v.depth v'.depth
  have hf := Nat.le_max_left v.size v'.size
  have hf' := Nat.le_max_right v.size v'.size
  have h1 := scanValue_text v _ _ [] hf hd (by simp [Stops])
  have h2 := scanValue_text v' _ _ w'.bytes hf' hd' (stops_space w')
  rw [append_nil, ht, h2] at h1
  exact (Prod.mk.inj (Option.some.inj h1)).1

end Sukko.Json
