import Mathlib.Data.Char
import Sukko.Lib.GoString
/-
# Runes and UTF-8

`encodeRune` and `decodeRune` follow package `unicode/utf8`: an encoding that is truncated, not the shortest, of a surrogate or
out of range is invalid, and a reader steps over one byte of it.
-/

namespace Sukko
open List

/-! ## Reading a list in chunks -/

section Chunks
variable {α β : Type} {head : α → List α → β × Nat}

/-- `head` reads the first element and says how many of the following it covers. -/
def chunks (head : α → List α → β × Nat) : Nat → List α → List β
  | _, [] => []
  | k + 1, _ :: t => chunks head k t
  | 0, a :: t => (head a t).1 :: chunks head (head a t).2 t

theorem chunks_skip {k : Nat} (p rest : List α) (h : p.length = k) : chunks head k (p ++ rest) = chunks head 0 rest := by
  induction p generalizing k with
  | nil => subst h; rfl
  | cons a p ih =>
    subst h
    exact ih rfl

theorem chunks_read {a : α} {p rest : List α} {b : β} (h : head a (p ++ rest) = (b, p.length)) :
    chunks head 0 (a :: p ++ rest) = b :: chunks head 0 rest := by
  rw [cons_append, chunks, h, chunks_skip p rest rfl]

theorem chunks_forall {P : β → Prop} {k : Nat} {l : List α} (h : ∀ a ∈ l, ∀ t, P (head a t).1) :
    ∀ b ∈ chunks head k l, P b := by
  induction l generalizing k with
  | nil => cases k <;> simp [chunks]
  | cons a l ih =>
    have ih' := fun k => ih (k := k) fun x hx => h x (mem_cons_of_mem a hx)
    cases k with
    | succ k => exact ih' k
    | zero =>
      rw [chunks, forall_mem_cons]
      exact ⟨h a mem_cons_self l, ih' _⟩

end Chunks

namespace Utf8

/-- Models `utf8.AppendRune`. -/
def encodeRune (c : Char) : GoStr :=
  let n := c.toNat
  if n < 0x80 then [.ofNat n]
  else if n < 0x800 then [.ofNat (0xC0 + n / 64), .ofNat (0x80 + n % 64)]
  else if n < 0x10000 then [.ofNat (0xE0 + n / 4096), .ofNat (0x80 + n / 64 % 64), .ofNat (0x80 + n % 64)]
  else [.ofNat (0xF0 + n / 262144), .ofNat (0x80 + n / 4096 % 64), .ofNat (0x80 + n / 64 % 64), .ofNat (0x80 + n % 64)]

def encode (cs : List Char) : GoStr := cs.flatMap encodeRune

def spelled (s : GoStr) : Nat :=
  let b := fun i => (s.getD i 0).toNat
  if b 0 < 0x80 then b 0
  else if b 0 < 0xE0 then b 0 % 32 * 64 + b 1 % 64
  else if b 0 < 0xF0 then b 0 % 16 * 4096 + b 1 % 64 * 64 + b 2 % 64
  else b 0 % 8 * 262144 + b 1 % 64 * 4096 + b 2 % 64 * 64 + b 3 % 64

/-- Models `utf8.DecodeRune`; `none` is an invalid encoding. -/
def decodeRune (s : GoStr) : Option Char :=
  let c := Char.ofNat (spelled s)
  if (encodeRune c).isPrefixOf s then some c else none

def readRune (b : UInt8) (t : GoStr) : Option Char × Nat :=
  match decodeRune (b :: t) with
  | some c => (some c, (encodeRune c).length - 1)
  | none => (none, 0)

def decode (s : GoStr) : List (Option Char) := chunks readRune 0 s
def runeError : Char := Char.ofNat 0xFFFD
def isCont (b : UInt8) : Bool := 0x80 ≤ b.toNat && b.toNat < 0xC0

theorem toNat_ofNat {n : Nat} (h : n < 256) : (UInt8.ofNat n).toNat = n := by
  simp only [UInt8.toNat_ofNat']
  omega

theorem toNat_lt (c : Char) : c.toNat < 0x110000 := by
  have h := c.valid
  simp only [UInt32.isValidChar, Nat.isValidChar] at h
  unfold Char.toNat
  omega

theorem toNat_ofNat_ascii {n : Nat} (h : n < 0x80) : (Char.ofNat n).toNat = n := by
  have hv : n.isValidChar := Or.inl (by omega)
  rw [Char.ofNat, dif_pos hv]
  rfl

theorem spelled_encodeRune (c : Char) (s : GoStr) : spelled (encodeRune c ++ s) = c.toNat := by
  have hlt := toNat_lt c
  unfold encodeRune
  generalize c.toNat = n at hlt
  dsimp only
  split
  · simp only [spelled, cons_append, nil_append, getD_cons_zero]
    rw [toNat_ofNat (by omega), if_pos (by omega)]
  · split
    · simp only [spelled, cons_append, nil_append, getD_cons_zero, getD_cons_succ]
      rw [toNat_ofNat (by omega), toNat_ofNat (by omega), if_neg (by omega), if_pos (by omega)]
      omega
    · split
      · simp only [spelled, cons_append, nil_append, getD_cons_zero, getD_cons_succ]
        rw [toNat_ofNat (by omega), toNat_ofNat (by omega), toNat_ofNat (by omega), if_neg (by omega),
          if_neg (by omega), if_pos (by omega)]
        omega
      · simp only [spelled, cons_append, nil_append, getD_cons_zero, getD_cons_succ]
        rw [toNat_ofNat (by omega), toNat_ofNat (by omega), toNat_ofNat (by omega), toNat_ofNat (by omega),
          if_neg (by omega), if_neg (by omega), if_neg (by omega)]
        omega

theorem decodeRune_encodeRune (c : Char) (s : GoStr) : decodeRune (encodeRune c ++ s) = some c := by
  unfold decodeRune
  rw [spelled_encodeRune, Char.ofNat_toNat]
  exact if_pos (List.isPrefixOf_iff_prefix.2 (prefix_append _ _))

theorem encodeRune_of_decodeRune {s : GoStr} {c : Char} (h : decodeRune s = some c) : encodeRune c <+: s := by
  unfold decodeRune at h
  dsimp only at h
  split at h
  · rename_i hp
    cases h
    exact isPrefixOf_iff_prefix.1 hp
  · cases h

theorem encodeRune_shape (c : Char) : ∃ b t, encodeRune c = b :: t ∧ (∀ x ∈ t, isCont x = true) ∧
      (c.toNat < 0x80 → b = .ofNat c.toNat ∧ t = []) ∧ (0x80 ≤ c.toNat → 0xC0 ≤ b.toNat) := by
  have hlt := toNat_lt c
  have hc : ∀ n, isCont (.ofNat (0x80 + n % 64)) = true := by
    intro n
    unfold isCont
    rw [toNat_ofNat (by omega)]
    simp only [Bool.and_eq_true, decide_eq_true_eq]
    omega
  unfold encodeRune
  generalize c.toNat = n at hlt
  dsimp only
  split
  · exact ⟨_, _, rfl, by simp, fun _ => ⟨rfl, rfl⟩, fun h => by omega⟩
  split
  · refine ⟨_, _, rfl, by simp only [forall_mem_cons, hc, not_mem_nil, false_imp_iff, implies_true, and_self],
      fun h => by omega, fun _ => ?_⟩
    rw [toNat_ofNat (by omega)]
    omega
  · split
    · refine ⟨_, _, rfl, by simp only [forall_mem_cons, hc, not_mem_nil, false_imp_iff, implies_true, and_self],
      fun h => by omega, fun _ => ?_⟩
      rw [toNat_ofNat (by omega)]
      omega
    · refine ⟨_, _, rfl, by simp only [forall_mem_cons, hc, not_mem_nil, false_imp_iff, implies_true, and_self],
      fun h => by omega, fun _ => ?_⟩
      rw [toNat_ofNat (by omega)]
      omega

theorem decode_encode (cs : List Char) : decode (encode cs) = cs.map some := by
  induction cs with
  | nil => rfl
  | cons c cs ih =>
    obtain ⟨b, t, hbt, -⟩ := encodeRune_shape c
    have hr : readRune b (t ++ encode cs) = (some c, t.length) := by
      unfold readRune
      rw [← cons_append, ← hbt, decodeRune_encodeRune]
      dsimp only
      rw [hbt, length_cons, Nat.add_sub_cancel]
    have hc : encode (c :: cs) = b :: t ++ encode cs := by rw [encode, flatMap_cons, hbt]; rfl
    rw [decode, hc, chunks_read hr, map_cons, ← ih, decode]

end Utf8
end Sukko
