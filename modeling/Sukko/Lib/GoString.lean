import Mathlib.Algebra.BigOperators.Fin
/-
# Go strings

A Go `string` (and a `[]byte` payload) is a sequence of bytes with no guarantee about encoding. The functions follow the
documentation of package `strings`.
-/

namespace Sukko
open List

abbrev Time := Int

def second : Time := 1000000000

/-- A Go `string` or `[]byte`. -/
abbrev GoStr := List UInt8

instance GoStr.lawfulBEq : LawfulBEq GoStr := inferInstance

def str (s : String) : GoStr := s.toList.map fun c => UInt8.ofNat c.toNat

namespace GoStr

def indexByte (s : GoStr) (b : UInt8) : Option Nat := s.findIdx? (· == b)
def hasPrefix (s p : GoStr) : Bool := p.isPrefixOf s
def hasSuffix (s p : GoStr) : Bool := p.isSuffixOf s
def dot : UInt8 := 46

def split (sep : UInt8) : GoStr → List GoStr
  | [] => [[]]
  | b :: s =>
    if b = sep then [] :: split sep s
    else
      match split sep s with
      | [] => [[b]]
      | p :: ps => (b :: p) :: ps

def join (sep : UInt8) : List GoStr → GoStr
  | [] => []
  | [p] => p
  | p :: ps => p ++ sep :: join sep ps

/-- Models `strings.Cut`. -/
def cut (s : GoStr) (sep : UInt8) : Option (GoStr × GoStr) :=
  (s.indexByte sep).map fun i => (s.take i, s.drop (i + 1))

variable {p s : GoStr} {sep : UInt8}

theorem cut_append {left : GoStr} (h : sep ∉ left) (right : GoStr) : cut (left ++ sep :: right) sep = some (left, right) := by
  have hn : left.findIdx? (· == sep) = none := by
    refine List.findIdx?_eq_none_iff.2 fun b hb => beq_false_of_ne ?_
    rintro rfl
    exact h hb
  have hi : (left ++ sep :: right).indexByte sep = some left.length := by
    rw [indexByte, List.findIdx?_append, hn, List.findIdx?_cons]
    simp
  rw [cut, hi, Option.map_some, take_left, ← drop_drop, drop_left]
  rfl

theorem cut_eq_some_iff {left right : GoStr} : cut s sep = some (left, right) ↔ s = left ++ sep :: right ∧ sep ∉ left := by
  constructor
  · intro h
    obtain ⟨i, hi, heq⟩ := Option.map_eq_some_iff.1 h
    obtain ⟨hlt, hs, hb⟩ := List.findIdx?_eq_some_iff_getElem.1 hi
    cases heq
    constructor
    · rw [← eq_of_beq hs, ← drop_eq_getElem_cons hlt, take_append_drop]
    · intro hm
      obtain ⟨j, hj, hg⟩ := getElem_of_mem hm
      rw [length_take] at hj
      refine hb j (Nat.lt_of_lt_of_le hj (Nat.min_le_left _ _)) ?_
      rw [getElem_take] at hg
      exact beq_iff_eq.2 hg
  · rintro ⟨rfl, hs⟩
    exact cut_append hs right

theorem hasPrefix_iff : hasPrefix s p = true ↔ p <+: s := List.isPrefixOf_iff_prefix
theorem hasSuffix_iff : hasSuffix s p = true ↔ p <:+ s := List.isSuffixOf_iff_suffix

theorem mem_split {b : UInt8} (hb : b ∈ s) (hne : b ≠ sep) : ∃ p ∈ split sep s, b ∈ p := by
  induction s with
  | nil => cases hb
  | cons c s ih =>
    unfold split
    rcases mem_cons.1 hb with rfl | hb
    · rw [if_neg hne]
      split
      · exact ⟨[b], mem_singleton_self _, mem_singleton_self _⟩
      · exact ⟨_, mem_cons_self, mem_cons_self⟩
    · obtain ⟨p, hp, hbp⟩ := ih hb
      split
      · exact ⟨p, mem_cons_of_mem _ hp, hbp⟩
      split
      · rename_i hn
        rw [hn] at hp
        cases hp
      · rename_i q qs hqs
        rw [hqs] at hp
        rcases mem_cons.1 hp with rfl | hp
        · exact ⟨_, mem_cons_self, mem_cons_of_mem _ hbp⟩
        · exact ⟨p, mem_cons_of_mem _ hp, hbp⟩

theorem split_ne_nil (sep : UInt8) (s : GoStr) : split sep s ≠ [] := by
  unfold split
  split
  · simp
  · split
    · simp
    · split <;> simp

theorem not_mem_of_mem_split (h : p ∈ split sep s) : sep ∉ p := by
  induction s generalizing p with
  | nil => simp_all [split]
  | cons b s ih =>
    unfold split at h
    cases hs : split sep s with
    | nil => exact absurd hs (split_ne_nil sep s)
    | cons q qs => grind

theorem length_split (sep : UInt8) (s : GoStr) : (split sep s).length = s.count sep + 1 := by
  induction s with
  | nil => rfl
  | cons b s ih =>
    unfold split
    cases hs : split sep s with
    | nil => exact absurd hs (split_ne_nil sep s)
    | cons p ps =>
      rw [hs] at ih
      split <;> simp_all

theorem split_append (hp : sep ∉ p) (s : GoStr) : split sep (p ++ sep :: s) = p :: split sep s := by
  induction p with
  | nil => simp [split]
  | cons b p ih => grind [split]

theorem split_eq_self (hp : sep ∉ p) : split sep p = [p] := by
  induction p with
  | nil => rfl
  | cons b p ih => grind [split]

theorem split_join {ps : List GoStr} (hne : ps ≠ []) (h : ∀ p ∈ ps, sep ∉ p) : split sep (join sep ps) = ps := by
  induction ps with
  | nil => exact absurd rfl hne
  | cons p ps ih =>
    rw [forall_mem_cons] at h
    cases ps with
    | nil => exact split_eq_self h.1
    | cons q qs => rw [join, split_append h.1, ih (by simp) h.2]; simp

def spaceRunes : List GoStr :=
  [[9], [10], [11], [12], [13], [32], [0xC2, 0x85], [0xC2, 0xA0], [0xE1, 0x9A, 0x80],
   [0xE2, 0x80, 0x80], [0xE2, 0x80, 0x81], [0xE2, 0x80, 0x82], [0xE2, 0x80, 0x83], [0xE2, 0x80, 0x84], [0xE2, 0x80, 0x85],
   [0xE2, 0x80, 0x86], [0xE2, 0x80, 0x87], [0xE2, 0x80, 0x88], [0xE2, 0x80, 0x89], [0xE2, 0x80, 0x8A],
   [0xE2, 0x80, 0xA8], [0xE2, 0x80, 0xA9], [0xE2, 0x80, 0xAF], [0xE2, 0x81, 0x9F], [0xE3, 0x80, 0x80]]

def trimLeft : Nat → GoStr → GoStr
  | 0, s => s
  | n + 1, s =>
    match spaceRunes.find? (·.isPrefixOf s) with
    | some w => trimLeft n (s.drop w.length)
    | none => s

def trimRight : Nat → GoStr → GoStr
  | 0, s => s
  | n + 1, s =>
    match spaceRunes.find? (·.isSuffixOf s) with
    | some w => trimRight n (s.take (s.length - w.length))
    | none => s

def trimSpace (s : GoStr) : GoStr :=
  let t := trimLeft s.length s
  trimRight t.length t

def isGraphic (b : UInt8) : Bool := 32 < b.toNat && b.toNat < 128

theorem spaceRunes_ends : ∀ w ∈ spaceRunes, w.head?.any (!isGraphic ·) = true ∧ w.getLast?.any (!isGraphic ·) = true := by
  decide

theorem trimSpace_eq_self (hh : s.head?.any isGraphic = true) (hls : s.getLast?.any isGraphic = true) : trimSpace s = s := by
  have hlf : spaceRunes.find? (·.isPrefixOf s) = none := by
    refine List.find?_eq_none.2 fun w hw hp => ?_
    obtain ⟨t, rfl⟩ := isPrefixOf_iff_prefix.1 hp
    have hw := (spaceRunes_ends w hw).1
    cases w with
    | nil => cases hw
    | cons b w => simp_all
  have hrg : spaceRunes.find? (·.isSuffixOf s) = none := by
    refine List.find?_eq_none.2 fun w hw hs => ?_
    obtain ⟨t, rfl⟩ := isSuffixOf_iff_suffix.1 hs
    have hw := (spaceRunes_ends w hw).2
    rw [List.getLast?_append] at hls
    cases hl : w.getLast? with
    | none => rw [hl] at hw; cases hw
    | some b => simp_all
  have hl : ∀ n, trimLeft n s = s := by
    intro n
    cases n with
    | zero => rfl
    | succ n => rw [trimLeft, hlf]
  have hr : ∀ n, trimRight n s = s := by
    intro n
    cases n with
    | zero => rfl
    | succ n => rw [trimRight, hrg]
  rw [trimSpace, hl, hr]

def isDigit (b : UInt8) : Bool := 48 ≤ b.toNat && b.toNat ≤ 57
def digitsVal (ds : GoStr) : Nat := ds.foldl (fun n d => n * 10 + (d.toNat - 48)) 0

/-- Models `strconv.ParseInt` with base 10 and 64 bits. -/
def parseInt (s : GoStr) : Option Int :=
  match s with
  | [] => none
  | b :: t =>
    let ds := if b = 43 ∨ b = 45 then t else s
    if ds = [] ∨ ds.all isDigit = false then none
    else if b = 45 then if digitsVal ds ≤ 2 ^ 63 then some (-(digitsVal ds : Int)) else none
    else if digitsVal ds < 2 ^ 63 then some (digitsVal ds : Int)
    else none

end GoStr
end Sukko
