import Sukko.Lib.Json.Parse
/-
# Unmarshalling and marshalling

`json.Unmarshal` on trees. A decoder takes the old value of its target: a `null` leaves a string alone, a key that comes twice
is decoded twice. A member sets the field with its exact name, else the first whose name is the same up to case.
-/

namespace Sukko.Json
open Utf8 List Function

/-! ## Values -/

def decodeString (v : Value) (old : GoStr) : Option GoStr :=
  match v with
  | .null => some old
  | .str s => some (encode s.unquote)
  | _ => none

structure StrSlice where
  items : List GoStr
  stale : List GoStr
deriving DecidableEq

def StrSlice.nil : StrSlice := ⟨[], []⟩

def decodeElems : List Value → List GoStr → Option (List GoStr)
  | [], _ => some []
  | v :: vs, backing =>
    match decodeString v (backing.headD []) with
    | none => none
    | some x => (decodeElems vs backing.tail).map (x :: ·)

def decodeStrings (v : Value) (old : StrSlice) : Option StrSlice :=
  match v with
  | .null => some .nil
  | .empty .arr _ => some .nil
  | .coll .arr es =>
    let backing := old.items ++ old.stale
    (decodeElems (es.toList.map (·.2)) backing).map fun xs => ⟨xs, backing.drop xs.length⟩
  | _ => none

def decodeInt (v : Value) (old : Int) : Option Int :=
  match v with
  | .null => some old
  | .num n => GoStr.parseInt n.raw
  | _ => none

abbrev StrMap := List (GoStr × GoStr)

def StrMap.insert (m : StrMap) (key value : GoStr) : StrMap := m.filter (·.1 ≠ key) ++ [(key, value)]

def decodeEntries : List (List Char × Value) → StrMap → Option StrMap
  | [], m => some m
  | (key, v) :: ms, m => (decodeString v []).bind fun x => decodeEntries ms (m.insert (encode key) x)

def Entries.members (es : Entries .obj) : List (List Char × Value) :=
  es.toList.map fun e => (Str.unquote (Key.name e.1), e.2)

def decodeStrMap (v : Value) (old : StrMap) : Option StrMap :=
  match v with
  | .null => some []
  | .empty .obj _ => some old
  | .coll .obj es => decodeEntries es.members old
  | _ => none

def decodePtr {τ : Type} (dec : Value → τ → Option τ) (zero : τ) (v : Value) (old : Option τ) : Option (Option τ) :=
  match v with
  | .null => some none
  | v => (dec v (old.getD zero)).map some

/-! ## Structs -/

def foldRune (c : Char) : Char :=
  if 97 ≤ c.toNat ∧ c.toNat ≤ 122 then Char.ofNat (c.toNat - 32)
  else if c.toNat = 0x17F then 'S'
  else if c.toNat = 0x212A then 'K'
  else c

structure StructField (σ : Type) where
  name : List Char
  set : Value → σ → Option σ

variable {σ : Type} {v : Value} {d : Nat}

def findField (fields : List (StructField σ)) (key : List Char) : Option (StructField σ) :=
  match fields.find? fun f => f.name == key with
  | some f => some f
  | none => fields.find? fun f => f.name.map foldRune == key.map foldRune

def setMember (fields : List (StructField σ)) (key : List Char) (v : Value) (s : σ) : Option σ :=
  match findField fields key with
  | none => some s
  | some f => f.set v s

def setMembers (fields : List (StructField σ)) : List (List Char × Value) → σ → Option σ
  | [], s => some s
  | (key, v) :: ms, s => (setMember fields key v s).bind (setMembers fields ms)

def decodeObject (fields : List (StructField σ)) (v : Value) (s : σ) : Option σ :=
  match v with
  | .null => some s
  | .empty .obj _ => some s
  | .coll .obj es => setMembers fields es.members s
  | _ => none

def unmarshal (fields : List (StructField σ)) (zero : σ) (data : GoStr) : Option σ :=
  (parse data).bind fun v => decodeObject fields v zero

theorem unmarshal_nil (fields : List (StructField σ)) (zero : σ) : unmarshal fields zero [] = none := rfl

/-! ## Decoding does not see compaction -/

@[simp] theorem decodeString_compact (v : Value) (old : GoStr) : decodeString v.compact old = decodeString v old := by
  cases v with
  | str s => simp only [Value.compact, decodeString, unquote_escapeHTML]
  | null | num n | empty k w | coll k es => rfl
  | bool b => cases b <;> rfl

theorem decodeElems_compact (vs : List Value) (backing : List GoStr) :
    decodeElems (vs.map Value.compact) backing = decodeElems vs backing := by
  induction vs generalizing backing with
  | nil => rfl
  | cons v vs ih => simp only [map_cons, decodeElems, decodeString_compact, ih]

@[simp] theorem decodeStrings_compact (v : Value) (old : StrSlice) : decodeStrings v.compact old = decodeStrings v old := by
  cases v with
  | coll k es =>
    cases k with
    | arr =>
      have hv : es.compact.toList.map (·.2) = (es.toList.map (·.2)).map Value.compact := by
        rw [Entries.toList_compact, map_map, map_map]
        rfl
      simp only [Value.compact, decodeStrings, hv, decodeElems_compact]
    | obj => rfl
  | empty k w => cases k <;> rfl
  | null | num n | str s => rfl
  | bool b => cases b <;> rfl

@[simp] theorem decodeInt_compact (v : Value) (old : Int) : decodeInt v.compact old = decodeInt v old := by
  cases v <;> rfl

theorem decodePtr_compact {τ : Type} {dec : Value → τ → Option τ} (zero : τ)
    (hd : ∀ v old, dec v.compact old = dec v old) (v : Value) (old : Option τ) :
    decodePtr dec zero v.compact old = decodePtr dec zero v old := by
  cases v with
  | null => rfl
  | bool b | num n | str s | empty k w | coll k es => exact congrArg (Option.map some) (hd _ _)

theorem Entries.members_compact (es : Entries .obj) : es.compact.members = es.members.map fun m => (m.1, m.2.compact) := by
  unfold Entries.members
  rw [Entries.toList_compact, map_map, map_map]
  refine map_congr_left fun e _ => ?_
  exact congrArg₂ Prod.mk (unquote_escapeHTML (Key.name e.1)) rfl

section Compact
variable {R : σ → σ → Prop} {fields : List (StructField σ)}

theorem mem_of_findField {key : List Char} {f : StructField σ} (h : findField fields key = some f) : f ∈ fields := by
  unfold findField at h
  split at h
  · rename_i hf
    cases h
    exact mem_of_find?_eq_some hf
  · exact mem_of_find?_eq_some h

theorem setMember_compact (hset : ∀ f ∈ fields, ∀ v s s', R s s' → Option.Rel R (f.set v.compact s) (f.set v s'))
    {s s' : σ} (h : R s s') (key : List Char) (v : Value) :
    Option.Rel R (setMember fields key v.compact s) (setMember fields key v s') := by
  unfold setMember
  cases hf : findField fields key with
  | none => exact .some h
  | some f => exact hset f (mem_of_findField hf) v s s' h

theorem setMembers_compact (hset : ∀ f ∈ fields, ∀ v s s', R s s' → Option.Rel R (f.set v.compact s) (f.set v s'))
    (ms : List (List Char × Value)) {s s' : σ} (h : R s s') :
    Option.Rel R (setMembers fields (ms.map fun m => (m.1, m.2.compact)) s) (setMembers fields ms s') := by
  induction ms generalizing s s' with
  | nil => exact .some h
  | cons m ms ih =>
    have hm := setMember_compact hset h m.1 m.2
    rw [map_cons, setMembers, setMembers]
    cases hm1 : setMember fields m.1 m.2.compact s with
    | none =>
      rw [hm1] at hm
      cases hm2 : setMember fields m.1 m.2 s' with
      | none => exact .none
      | some t => rw [hm2] at hm; cases hm
    | some t =>
      rw [hm1] at hm
      cases hm2 : setMember fields m.1 m.2 s' with
      | none => rw [hm2] at hm; cases hm
      | some t' =>
        rw [hm2] at hm
        cases hm with
        | some hR => exact ih hR

/-- **Decoding a compacted object**: field by field the same, if every field is. -/
theorem decodeObject_compact (hset : ∀ f ∈ fields, ∀ v s s', R s s' → Option.Rel R (f.set v.compact s) (f.set v s'))
    (v : Value) {s s' : σ} (h : R s s') :
    Option.Rel R (decodeObject fields v.compact s) (decodeObject fields v s') := by
  cases v with
  | coll k es =>
    cases k with
    | arr => exact .none
    | obj =>
      rw [Value.compact, decodeObject, decodeObject, Entries.members_compact]
      exact setMembers_compact hset es.members h
  | empty k w =>
    cases k with
    | arr => exact .none
    | obj => exact .some h
  | null => exact .some h
  | bool b => cases b <;> exact .none
  | num n | str s => exact .none

theorem decodeObject_compact_eq (hset : ∀ f ∈ fields, ∀ v s, f.set v.compact s = f.set v s) (v : Value) (s : σ) :
    decodeObject fields v.compact s = decodeObject fields v s := by
  have hr : Option.Rel Eq (decodeObject fields v.compact s) (decodeObject fields v s) := by
    refine decodeObject_compact (fun f hf v s s' hs => ?_) v rfl
    rw [hs, hset f hf v s']
    cases f.set v s' with
    | none => exact .none
    | some t => exact .some rfl
  generalize decodeObject fields v.compact s = a at hr
  generalize decodeObject fields v s = b at hr
  cases hr with
  | none => rfl
  | some h => rw [h]

end Compact

variable {fields : List (StructField σ)}

theorem decodeObject_keeps {P : σ → Prop} (hset : ∀ f ∈ fields, ∀ v s s', P s → f.set v s = some s' → P s') {s s' : σ} (h : P s)
    (hd : decodeObject fields v s = some s') : P s' := by
  have hm : ∀ (ms : List (List Char × Value)) (s : σ), P s → setMembers fields ms s = some s' → P s' := by
    intro ms
    induction ms with
    | nil =>
      intro s hs hms
      cases hms
      exact hs
    | cons m ms ih =>
      intro s hs hms
      obtain ⟨t, ht, hms⟩ := Option.bind_eq_some_iff.1 hms
      refine ih t ?_ hms
      unfold setMember at ht
      split at ht
      · cases ht
        exact hs
      · rename_i f hf
        exact hset f (mem_of_findField hf) m.2 s t hs ht
  unfold decodeObject at hd
  split at hd
  · cases hd
    exact h
  · cases hd
    exact h
  · exact hm _ s h hd
  · cases hd

/-! ## Writing values -/

def entriesOf {k : Kind} : Lead k × Value → List (Lead k × Value) → Entries k
  | e, [] => .last e.1 e.2 .none
  | e, e' :: es => .cons e.1 e.2 .none (entriesOf e' es)

theorem toList_entriesOf {k : Kind} (e : Lead k × Value) (es : List (Lead k × Value)) : (entriesOf e es).toList = e :: es := by
  induction es generalizing e with
  | nil => rfl
  | cons e' es ih => rw [entriesOf, Entries.toList, ih]

def keyOf (name : List Char) : Key := ⟨.none, quote (encode name), .none, .none⟩

def object : List (List Char × Value) → Value
  | [] => .empty .obj .none
  | m :: ms => .coll .obj (entriesOf (keyOf m.1, m.2) (ms.map fun m => (keyOf m.1, m.2)))

def objectOfMap (ms : List (List Char × Value)) : Value := object (ms.insertionSort fun a b => a.1 ≤ b.1)
def noLead : Lead .arr := Space.none

def array : List Value → Value
  | [] => .empty .arr .none
  | v :: vs => .coll .arr (entriesOf (noLead, v) (vs.map fun v => (noLead, v)))

theorem members_entriesOf (m : List Char × Value) (ms : List (List Char × Value)) :
    Entries.members (entriesOf (k := .obj) (keyOf m.1, m.2) (ms.map fun m => (keyOf m.1, m.2))) = m :: ms := by
  unfold Entries.members
  rw [toList_entriesOf, map_cons, map_map]
  refine congrArg₂ List.cons (Prod.ext (unquote_quote m.1) rfl) ?_
  refine (map_congr_left (g := id) fun e _ => ?_).trans (map_id ms)
  exact Prod.ext (unquote_quote e.1) rfl

/-- **What a written object decodes to**: its members, one after the other. -/
theorem decodeObject_object (fields : List (StructField σ)) (ms : List (List Char × Value)) (s : σ) :
    decodeObject fields (object ms) s = setMembers fields ms s := by
  cases ms with
  | nil => rfl
  | cons m ms => rw [object, decodeObject, members_entriesOf]

theorem decodeStrMap_object (ms : List (List Char × Value)) : decodeStrMap (object ms) [] = decodeEntries ms [] := by
  cases ms with
  | nil => rfl
  | cons m ms => rw [object, decodeStrMap, members_entriesOf]

theorem decodeElems_quoted (xs : List GoStr) (backing : List GoStr) :
    decodeElems (xs.map fun x => .str (quote x)) backing = some (xs.map fun x => encode (quote x).unquote) := by
  induction xs generalizing backing with
  | nil => rfl
  | cons x xs ih => simp only [map_cons, decodeElems, decodeString, ih, Option.map_some]

theorem decodeStrings_quoted (xs : List GoStr) :
    decodeStrings (array (xs.map fun x => .str (quote x))) .nil = some ⟨xs.map fun x => encode (quote x).unquote, []⟩ := by
  cases xs with
  | nil => rfl
  | cons x xs =>
    have hv : (entriesOf (noLead, .str (quote x)) ((xs.map fun x => Value.str (quote x)).map fun v => (noLead, v))).toList.map
        (·.2) = (x :: xs).map fun x => Value.str (quote x) := by
      rw [toList_entriesOf, map_cons, map_cons, map_map]
      exact congrArg _ (map_id _)
    rw [map_cons, array]
    simp only [decodeStrings, hv, decodeElems_quoted, StrSlice.nil, append_nil, drop_nil, Option.map_some]

theorem decodeStrings_array (xs : List (List Char)) :
    decodeStrings (array (xs.map fun x => .str (quote (encode x)))) .nil = some ⟨xs.map encode, []⟩ := by
  have h := decodeStrings_quoted (xs.map encode)
  simp only [map_map, comp_def, unquote_quote] at h
  exact h

theorem unmarshal_text {zero s : σ} (h : unmarshal fields zero v.text = some s) : decodeObject fields v zero = some s := by
  obtain ⟨v', hp, hd⟩ := Option.bind_eq_some_iff.1 h
  rw [parse_text hp] at hd
  exact hd

/-! ## Maps of strings -/

def stringMapTree (m : StrMap) : Value := objectOfMap (m.map fun e => ((quote e.1).unquote, .str (quote e.2)))

def StrMap.Written (m : StrMap) : Prop :=
  (m.map Prod.fst).Nodup ∧ ∀ e ∈ m, encode (quote e.1).unquote = e.1 ∧ encode (quote e.2).unquote = e.2

theorem decodeEntries_written {m : StrMap} (acc : StrMap) (hm : ∀ e ∈ m, encode (quote e.1).unquote = e.1 ∧ encode (quote e.2).unquote = e.2)
    (hk : ((acc ++ m).map Prod.fst).Nodup) :
    decodeEntries (m.map fun e => ((quote e.1).unquote, .str (quote e.2))) acc = some (acc ++ m) := by
  induction m generalizing acc with
  | nil => rw [map_nil, decodeEntries, append_nil]
  | cons e m ih =>
    rw [forall_mem_cons] at hm
    have hn : acc.filter (·.1 ≠ e.1) = acc := by
      refine filter_eq_self.2 fun e' he' => decide_eq_true fun heq => ?_
      rw [map_append, nodup_append] at hk
      exact hk.2.2 e'.1 (mem_map_of_mem he') e.1 (by simp) heq
    rw [map_cons, decodeEntries, decodeString, Option.bind_some, hm.1.1, hm.1.2, StrMap.insert, hn,
      ih _ hm.2 (by simpa using hk), append_assoc]
    rfl

/-- **A map of strings is read back**, in the order of its keys. -/
theorem decodeStrMap_stringMapTree {m : StrMap} (h : m.Written) :
    ∃ m', decodeStrMap (stringMapTree m) [] = some m' ∧ m'.Perm m := by
  obtain ⟨hk, hm⟩ := h
  refine ⟨m.insertionSort fun a b => (quote a.1).unquote ≤ (quote b.1).unquote, ?_, perm_insertionSort _ m⟩
  have hp := perm_insertionSort (fun a b => (quote a.1).unquote ≤ (quote b.1).unquote) m
  have hs : (m.map fun e => ((quote e.1).unquote, Value.str (quote e.2))).insertionSort (fun a b => a.1 ≤ b.1) =
      (m.insertionSort fun a b => (quote a.1).unquote ≤ (quote b.1).unquote).map
        fun e => ((quote e.1).unquote, Value.str (quote e.2)) :=
    (map_insertionSort _ _ (fun e => ((quote e.1).unquote, Value.str (quote e.2))) m fun _ _ _ _ => Iff.rfl).symm
  rw [stringMapTree, objectOfMap, decodeStrMap_object, hs]
  exact decodeEntries_written [] (fun e he => hm e (hp.mem_iff.1 he)) ((hp.map Prod.fst).nodup_iff.2 hk)

/-! ## Reading what was written -/

theorem depth_entriesOf {k : Kind} (e : Lead k × Value) (es : List (Lead k × Value))
    (h : ∀ e' ∈ e :: es, e'.2.depth ≤ d) : (entriesOf e es).depth ≤ d := by
  induction es generalizing e with
  | nil => exact h e mem_cons_self
  | cons e' es ih =>
    rw [forall_mem_cons] at h
    exact max_le h.1 (ih e' h.2)

theorem depth_array {vs : List Value} (h : ∀ v ∈ vs, v.depth ≤ d) : (array vs).depth ≤ d + 1 := by
  cases vs with
  | nil => exact Nat.succ_le_succ (Nat.zero_le d)
  | cons v vs =>
    rw [forall_mem_cons] at h
    refine Nat.succ_le_succ (depth_entriesOf _ _ ?_)
    simpa using h

theorem depth_object {ms : List (List Char × Value)} (h : ∀ m ∈ ms, m.2.depth ≤ d) : (object ms).depth ≤ d + 1 := by
  cases ms with
  | nil => exact Nat.succ_le_succ (Nat.zero_le d)
  | cons m ms =>
    rw [forall_mem_cons] at h
    refine Nat.succ_le_succ (depth_entriesOf _ _ ?_)
    rw [forall_mem_cons, forall_mem_map]
    exact h

theorem depth_stringMapTree (m : StrMap) : (stringMapTree m).depth ≤ 1 := by
  refine depth_object (d := 0) fun e he => ?_
  obtain ⟨e', -, rfl⟩ := mem_map.1 ((mem_insertionSort _).1 he)
  exact Nat.le_refl 0

theorem parse_written (h : v.depth ≤ maxNestingDepth) : parse v.text = some v :=
  parse_iff.2 ⟨⟨.none, .none, (append_nil _).symm⟩, h⟩

theorem unmarshal_written {zero : σ} (h : v.depth ≤ maxNestingDepth) :
    unmarshal fields zero v.text = decodeObject fields v zero := by
  rw [unmarshal, parse_written h, Option.bind_some]

end Sukko.Json
