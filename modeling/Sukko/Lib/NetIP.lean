import Mathlib.Data.List.TakeWhile
import Sukko.Lib.GoString
/-
# IP addresses as text

Splitting what was joined gives the host back, except that one pair of brackets around a host without a colon is lost
(`splitHostPort_joinHostPort`).
-/

namespace Sukko.NetIP
open GoStr List
open Option (bind_eq_some_iff map_eq_some_iff)

def colon : UInt8 := 58
def percent : UInt8 := 37
def openBracket : UInt8 := 91
def closeBracket : UInt8 := 93

/-! ## Addresses -/

abbrev IP := BitVec 128

def ofBytes (bs : List UInt8) : IP := bs.foldl (fun a b => (a <<< 8) ||| b.toBitVec.setWidth 128) 0
def mapped (v4 : List UInt8) : List UInt8 := List.replicate 10 0 ++ [0xFF, 0xFF] ++ v4
def to4 (ip : IP) : Option (BitVec 32) := if ip >>> 32 = 0xFFFF then some (ip.setWidth 32) else none

def octet (s : GoStr) : Option UInt8 :=
  if s = [] ∨ !s.all isDigit then none
  else if 1 < s.length ∧ s.head? = some 48 then none
  else if 255 < digitsVal s then none
  else some (UInt8.ofNat (digitsVal s))

def parseIPv4Fields (s : GoStr) : Option (List UInt8) :=
  match (split dot s).mapM octet with
  | some [a, b, c, d] => some [a, b, c, d]
  | _ => none

def isHex (b : UInt8) : Bool := isDigit b || (97 ≤ b.toNat && b.toNat ≤ 102) || (65 ≤ b.toNat && b.toNat ≤ 70)

def hexVal (b : UInt8) : Nat :=
  if isDigit b then b.toNat - 48 else if 97 ≤ b.toNat then b.toNat - 87 else b.toNat - 55

def groupBytes (digits : GoStr) : List UInt8 :=
  let acc := digits.foldl (fun n d => n * 16 + hexVal d) 0
  [UInt8.ofNat (acc / 256), UInt8.ofNat (acc % 256)]

def parseGroups : Nat → List UInt8 → Option Nat → GoStr → Option (List UInt8 × Option Nat)
  | 0, bs, ellipsis, s => if s = [] then some (bs, ellipsis) else none
  | n + 1, bs, ellipsis, s =>
    let digits := s.takeWhile isHex
    let next := bs ++ groupBytes digits
    if digits = [] ∨ 4 < digits.length then none
    else
      match s.dropWhile isHex with
      | [] => some (next, ellipsis)
      | b :: rest =>
        if b = dot then
          -- an IPv4 address stands for the last two groups
          if (ellipsis = none ∧ bs.length ≠ 12) ∨ 12 < bs.length then none
          else (parseIPv4Fields s).map fun v4 => (bs ++ v4, ellipsis)
        else if b ≠ colon then none
        else
          match rest with
          | [] => none
          | c :: rest' =>
            if c = colon then
              if ellipsis.isSome then none
              else if rest' = [] then some (next, some next.length)
              else parseGroups n next (some next.length) rest'
            else parseGroups n next ellipsis rest

def expand (bs : List UInt8) : Option Nat → Option (List UInt8)
  | none => if bs.length = 16 then some bs else none
  | some at_ =>
    if bs.length < 16 then some (bs.take at_ ++ List.replicate (16 - bs.length) 0 ++ bs.drop at_) else none

def parseIPv6 (s : GoStr) : Option (List UInt8) :=
  if hasPrefix s [colon, colon] then
    let rest := s.drop 2
    if rest = [] then some (List.replicate 16 0)
    else (parseGroups 8 [] (some 0) rest).bind fun r => expand r.1 r.2
  else (parseGroups 8 [] none s).bind fun r => expand r.1 r.2

def parseAddr (s : GoStr) : Option (IP × GoStr) :=
  match s.find? (fun b => b == dot || b == colon || b == percent) with
  | none => none
  | some b =>
    if b = dot then (parseIPv4Fields s).map fun v4 => (ofBytes (mapped v4), [])
    else if b = colon then
      match s.cut percent with
      | none => (parseIPv6 s).map fun bs => (ofBytes bs, [])
      | some (addr, zone) => if zone = [] then none else (parseIPv6 addr).map fun bs => (ofBytes bs, zone)
    else none

/-- Models `net.ParseIP`: an address with a zone is none. -/
def parseIP (s : GoStr) : Option IP := (parseAddr s).bind fun r => if r.2 = [] then some r.1 else none

def dropZone (s : GoStr) : GoStr := s.takeWhile (· ≠ percent)

/-! ## Blocks -/

inductive Block
  | v4 (net : BitVec 32) (ones : Nat)
  | v6 (net : BitVec 128) (ones : Nat)
deriving DecidableEq

def Block.ofQuad (a b c d : UInt8) (ones : Nat) : Block := .v4 ((ofBytes [a, b, c, d]).setWidth 32) ones
def Block.ofGroup (g : Nat) (ones : Nat) : Block := .v6 (BitVec.ofNat 128 g <<< 112) ones

/-- Models `IPNet.Contains`: an IPv4-mapped address counts as IPv4. -/
def Block.contains (blk : Block) (ip : IP) : Bool :=
  match blk, to4 ip with
  | .v4 net ones, some a => a >>> (32 - ones) == net >>> (32 - ones)
  | .v6 net ones, none => ip >>> (128 - ones) == net >>> (128 - ones)
  | _, _ => false

def isLoopback (ip : IP) : Bool :=
  match to4 ip with
  | some a => a >>> 24 == 127
  | none => ip == 1

def isLinkLocalUnicast (ip : IP) : Bool :=
  match to4 ip with
  | some a => a >>> 16 == 0xA9FE
  | none => ip >>> 118 == 0x3FA

def isLinkLocalMulticast (ip : IP) : Bool :=
  match to4 ip with
  | some a => a >>> 8 == 0xE00000
  | none => (ip >>> 112) &&& 0xFF0F == 0xFF02

/-! ## Hosts and ports -/

def cutLast (s : GoStr) (sep : UInt8) : Option (GoStr × GoStr) :=
  (cut s.reverse sep).map fun p => (p.2.reverse, p.1.reverse)

def bracketed (rest : GoStr) : Option GoStr :=
  match cut rest closeBracket with
  | some (host, []) => some host
  | _ => none

/-- `net.SplitHostPort`: the port is behind the last colon, a host in brackets ends right before it; other brackets, and colons
without brackets, are errors. -/
def splitHostPort (hostport : GoStr) : Option (GoStr × GoStr) :=
  match cutLast hostport colon with
  | none => none
  | some (left, port) =>
    if openBracket ∈ port ∨ closeBracket ∈ port then none
    else
      match left with
      | [] => some ([], port)
      | b :: rest =>
        if b = openBracket then
          (bracketed rest).bind fun host => if openBracket ∈ host then none else some (host, port)
        else if colon ∈ left ∨ openBracket ∈ left ∨ closeBracket ∈ left then none
        else some (left, port)

def joinHostPort (host port : GoStr) : GoStr :=
  if colon ∈ host then openBracket :: (host ++ closeBracket :: colon :: port) else host ++ colon :: port

def bare (host : GoStr) : GoStr :=
  if colon ∈ host then host
  else if hasPrefix host [openBracket] ∧ hasSuffix (host.drop 1) [closeBracket] then (host.drop 1).dropLast
  else host

/-! ## The bytes of an address -/

def isIPByte (b : UInt8) : Bool := isHex b || b == dot || b == colon

variable {b sep : UInt8} {bs : List UInt8} {port s : GoStr}

theorem isIPByte_of_isHex (h : isHex b = true) : isIPByte b = true := by simp [isIPByte, h]
theorem isIPByte_of_isDigit (h : isDigit b = true) : isIPByte b = true := isIPByte_of_isHex (by simp [isHex, h])

theorem octet_bytes {v : UInt8} (h : octet s = some v) : ∀ b ∈ s, isDigit b = true := by
  unfold octet at h
  split at h
  · cases h
  rename_i hd
  simp only [not_or, Bool.not_eq_true', Bool.not_eq_false, all_eq_true] at hd
  exact hd.2

theorem mem_of_mapM {α β : Type} {f : α → Option β} {xs : List α} {ys : List β} (h : xs.mapM f = some ys) :
    ∀ x ∈ xs, ∃ y, f x = some y := by
  induction xs generalizing ys with
  | nil =>
    intro x hx
    cases hx
  | cons a xs ih =>
    rw [mapM_cons] at h
    obtain ⟨y, hy, h⟩ := bind_eq_some_iff.1 h
    obtain ⟨ys', hys, -⟩ := bind_eq_some_iff.1 h
    exact forall_mem_cons.2 ⟨⟨y, hy⟩, ih hys⟩

theorem parseIPv4Fields_bytes (h : parseIPv4Fields s = some bs) : ∀ b ∈ s, isIPByte b = true := by
  intro b hb
  unfold parseIPv4Fields at h
  split at h
  · rename_i hpr
    by_cases hd : b = dot
    · simp [isIPByte, hd]
    · obtain ⟨p, hp, hbp⟩ := mem_split hb hd
      obtain ⟨v, hv⟩ := mem_of_mapM hpr p hp
      exact isIPByte_of_isDigit (octet_bytes hv b hbp)
  · cases h

theorem bytes_of_rest (h : ∀ b ∈ s.dropWhile isHex, isIPByte b = true) : ∀ b ∈ s, isIPByte b = true := by
  intro b hb
  rw [← takeWhile_append_dropWhile (p := isHex) (l := s), mem_append] at hb
  rcases hb with hb | hb
  · exact isIPByte_of_isHex (mem_takeWhile_imp hb)
  · exact h b hb

theorem parseGroups_bytes {n : Nat} {ellipsis : Option Nat} {r : List UInt8 × Option Nat}
    (h : parseGroups n bs ellipsis s = some r) : ∀ b ∈ s, isIPByte b = true := by
  induction n generalizing bs ellipsis s with unfold parseGroups at h
  | zero =>
    split at h
    · rename_i hn
      intro b hb
      rw [hn] at hb
      cases hb
    · cases h
  | succ n ih =>
    dsimp only at h
    split at h
    · cases h
    split at h
    · rename_i hr
      refine bytes_of_rest fun b hb => ?_
      rw [hr] at hb
      cases hb
    · rename_i c rest hr
      split at h
      · -- the rest is an IPv4 address
        split at h
        · cases h
        obtain ⟨v4, hv4, -⟩ := map_eq_some_iff.1 h
        exact parseIPv4Fields_bytes hv4
      · split at h
        · cases h
        rename_i hc
        have hc : isIPByte c = true := by simp [isIPByte, not_not.1 hc]
        refine bytes_of_rest fun b hb => ?_
        rw [hr] at hb
        rcases mem_cons.1 hb with rfl | hb
        · exact hc
        split at h
        · cases h
        rename_i d rest'
        split at h
        · rename_i hd
          rcases mem_cons.1 hb with rfl | hb
          · simp [isIPByte, hd]
          split at h
          · cases h
          split at h
          · rename_i hn
            rw [hn] at hb
            cases hb
          · exact ih h b hb
        · exact ih h b hb

theorem parseIPv6_bytes (h : parseIPv6 s = some bs) : ∀ b ∈ s, isIPByte b = true := by
  unfold parseIPv6 at h
  split at h
  · rename_i hp
    obtain ⟨t, rfl⟩ := hasPrefix_iff.1 hp
    have ht : ∀ b ∈ t, isIPByte b = true := by
      dsimp only at h
      split at h
      · rename_i hn
        intro b hb
        have hn : t = [] := hn
        rw [hn] at hb
        cases hb
      · obtain ⟨r, hr, -⟩ := bind_eq_some_iff.1 h
        exact parseGroups_bytes hr
    refine forall_mem_append.2 ⟨fun b hb => ?_, ht⟩
    have hc : b = colon := by simpa using hb
    rw [hc]
    decide
  · obtain ⟨r, hr, -⟩ := bind_eq_some_iff.1 h
    exact parseGroups_bytes hr

theorem parseIP_bytes {ip : IP} (h : parseIP s = some ip) : ∀ b ∈ s, isIPByte b = true := by
  obtain ⟨⟨a, zone⟩, ha, hz⟩ := bind_eq_some_iff.1 h
  unfold parseAddr at ha
  split at ha
  · cases ha
  split at ha
  · obtain ⟨v4, hv4, -⟩ := map_eq_some_iff.1 ha
    exact parseIPv4Fields_bytes hv4
  · split at ha
    · split at ha
      · obtain ⟨bs, hbs, -⟩ := map_eq_some_iff.1 ha
        exact parseIPv6_bytes hbs
      · split at ha
        · cases ha
        -- an address with a zone is not accepted
        rename_i hne
        obtain ⟨bs, hbs, heq⟩ := map_eq_some_iff.1 ha
        cases heq
        rw [if_neg hne] at hz
        cases hz
    · cases ha

theorem not_mem_of_parseIP {ip : IP} (h : parseIP s = some ip) (hb : isIPByte b = false) : b ∉ s := by
  intro hm
  rw [parseIP_bytes h b hm] at hb
  cases hb

theorem dropZone_of_not_mem (h : percent ∉ s) : dropZone s = s := by
  refine takeWhile_eq_self_iff.2 fun b hb => decide_eq_true ?_
  rintro rfl
  exact h hb

/-! ## Splitting what was joined -/

theorem cutLast_append {left right : GoStr} (h : sep ∉ right) : cutLast (left ++ sep :: right) sep = some (left, right) := by
  have hr : (left ++ sep :: right).reverse = right.reverse ++ sep :: left.reverse := by simp
  unfold cutLast
  rw [hr, cut_append (by simpa using h)]
  simp

theorem eq_of_cutLast {left right : GoStr} (h : cutLast s sep = some (left, right)) :
    s = left ++ sep :: right ∧ sep ∉ right := by
  obtain ⟨⟨r, l⟩, hc, heq⟩ := map_eq_some_iff.1 h
  obtain ⟨hs, hsp⟩ := cut_eq_some_iff.1 hc
  cases heq
  constructor
  · have hs' := congrArg List.reverse hs
    simpa using hs'
  · simpa using hsp

structure IsPort (port : GoStr) : Prop where
  colon : colon ∉ port
  openB : openBracket ∉ port
  close : closeBracket ∉ port

theorem isPort_of_splitHostPort {host : GoStr} (h : splitHostPort s = some (host, port)) : IsPort port := by
  unfold splitHostPort at h
  split at h
  · cases h
  rename_i left port' hct
  obtain ⟨-, hc⟩ := eq_of_cutLast hct
  split at h
  · cases h
  rename_i hbr
  rw [not_or] at hbr
  have hp : port = port' := by
    split at h
    · cases h
      rfl
    · split at h
      · obtain ⟨ho, -, h⟩ := bind_eq_some_iff.1 h
        split at h <;> cases h
        rfl
      · split at h <;> cases h
        rfl
  subst hp
  exact ⟨hc, hbr.1, hbr.2⟩

theorem bracketed_append (m : GoStr) : bracketed (m ++ [closeBracket]) = if closeBracket ∈ m then none else some m := by
  unfold bracketed
  split
  · rename_i host hc
    obtain ⟨heq, hn⟩ := cut_eq_some_iff.1 hc
    obtain rfl : m = host := append_cancel_right heq
    rw [if_neg hn]
  · rename_i hc
    have hm : closeBracket ∈ m := by
      by_contra hn
      exact hc m (cut_append hn [])
    rw [if_pos hm]

theorem bracketed_of_not_suffix {rest : GoStr} (h : ¬[closeBracket] <:+ rest) : bracketed rest = none := by
  unfold bracketed
  split
  · rename_i host hc
    exact absurd ⟨host, (cut_eq_some_iff.1 hc).1.symm⟩ h
  · rfl

theorem splitHostPort_append (left : GoStr) (hp : IsPort port) : splitHostPort (left ++ colon :: port) =
      match left with
      | [] => some ([], port)
      | b :: rest =>
        if b = openBracket then
          (bracketed rest).bind fun host => if openBracket ∈ host then none else some (host, port)
        else if colon ∈ left ∨ openBracket ∈ left ∨ closeBracket ∈ left then none
        else some (left, port) := by
  unfold splitHostPort
  rw [cutLast_append hp.colon]
  simp only [hp.openB, hp.close, or_self, if_false]

/-- **Splitting what was joined** gives the bare host, unless that has a bracket. -/
theorem splitHostPort_joinHostPort (host : GoStr) (hp : IsPort port) : splitHostPort (joinHostPort host port) =
      if openBracket ∈ bare host ∨ closeBracket ∈ bare host then none else some (bare host, port) := by
  unfold joinHostPort bare
  by_cases hcl : colon ∈ host
  · -- the brackets that were put around the host are taken off again
    have hs : openBracket :: (host ++ closeBracket :: colon :: port) =
        openBracket :: (host ++ [closeBracket]) ++ colon :: port := by simp
    simp only [hcl, if_true]
    rw [hs, splitHostPort_append _ hp]
    simp only [if_true, bracketed_append]
    by_cases hcs : closeBracket ∈ host <;> by_cases ho : openBracket ∈ host <;> simp [hcs, ho]
  · simp only [hcl, if_false]
    rw [splitHostPort_append host hp]
    cases host with
    | nil => simp [hasPrefix]
    | cons b rest =>
      by_cases hb : b = openBracket
      · subst hb
        by_cases hsf : [closeBracket] <:+ rest
        · obtain ⟨m, rfl⟩ := hsf
          have hc : hasPrefix (openBracket :: (m ++ [closeBracket])) [openBracket] = true ∧
              hasSuffix ((openBracket :: (m ++ [closeBracket])).drop 1) [closeBracket] = true :=
            ⟨by simp [hasPrefix], hasSuffix_iff.2 (suffix_append m [closeBracket])⟩
          rw [if_pos hc]
          simp only [if_true, bracketed_append, drop_succ_cons, drop_zero, dropLast_concat]
          by_cases hcs : closeBracket ∈ m <;> by_cases ho : openBracket ∈ m <;> simp [hcs, ho]
        · have hc : ¬(hasPrefix (openBracket :: rest) [openBracket] = true ∧
              hasSuffix ((openBracket :: rest).drop 1) [closeBracket] = true) := fun h => hsf (hasSuffix_iff.1 h.2)
          rw [if_neg hc]
          simp [bracketed_of_not_suffix hsf]
      · have hc : ¬(hasPrefix (b :: rest) [openBracket] = true ∧ hasSuffix ((b :: rest).drop 1) [closeBracket] = true) := by
          rintro ⟨h, -⟩
          obtain ⟨t, ht⟩ := hasPrefix_iff.1 h
          exact hb (List.cons.inj ht).1.symm
        rw [if_neg hc]
        simp only [if_false, hb, hcl, false_or]

end Sukko.NetIP
