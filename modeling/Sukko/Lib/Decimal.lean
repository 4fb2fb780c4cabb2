import Mathlib.Data.List.TakeWhile
import Mathlib.Data.Nat.Digits.Lemmas
import Sukko.Lib.Json.Tree
/-
# Decimal numerals

`strconv.Itoa` of a natural number: the digits without a leading zero.
-/

namespace Sukko
open List

namespace GoStr

def digit (d : Nat) : UInt8 := UInt8.ofNat (48 + d)
def formatNat (n : Nat) : GoStr := if n = 0 then [digit 0] else (Nat.digits 10 n).reverse.map digit

/-- Models `strconv.FormatInt` with base 10. -/
def formatInt (n : Int) : GoStr := if n < 0 then 45 :: formatNat n.natAbs else formatNat n.natAbs

theorem toNat_digit {d : Nat} (h : d < 10) : (digit d).toNat = 48 + d := by
  simp only [digit, UInt8.toNat_ofNat']
  omega

theorem isDigit_digit {d : Nat} (h : d < 10) : isDigit (digit d) = true := by
  simp only [isDigit, toNat_digit h, Bool.and_eq_true, decide_eq_true_eq]
  omega

theorem formatNat_isDigit (n : Nat) : ∀ b ∈ formatNat n, isDigit b = true := by
  intro b hb
  unfold formatNat at hb
  split at hb
  · rw [mem_singleton.1 hb]
    decide
  · obtain ⟨d, hd, rfl⟩ := mem_map.1 hb
    exact isDigit_digit (Nat.digits_lt_base (by omega) (mem_reverse.1 hd))

theorem formatNat_cons {n : Nat} (h : n ≠ 0) : ∃ b t, formatNat n = b :: t ∧ b ≠ 48 := by
  have hne : Nat.digits 10 n ≠ [] := Nat.digits_ne_nil_iff_ne_zero.2 h
  have hl := Nat.getLast_digit_ne_zero 10 h
  have hm := Nat.digits_lt_base (b := 10) (by omega) (getLast_mem hne)
  refine ⟨digit ((Nat.digits 10 n).getLast hne), (Nat.digits 10 n).dropLast.reverse.map digit, ?_, fun heq => hl ?_⟩
  · rw [formatNat, if_neg h]
    conv_lhs => rw [← dropLast_append_getLast hne, reverse_append, reverse_singleton, singleton_append]
    rfl
  · have hn := congrArg UInt8.toNat heq
    rw [toNat_digit hm] at hn
    have h48 : (48 : UInt8).toNat = 48 := rfl
    omega

theorem digitsVal_digits {l : List Nat} (h : ∀ d ∈ l, d < 10) : digitsVal (l.reverse.map digit) = Nat.ofDigits 10 l := by
  induction l with
  | nil => rfl
  | cons d l ih =>
    rw [forall_mem_cons] at h
    have ih := ih h.2
    unfold digitsVal at ih ⊢
    rw [reverse_cons, map_append, foldl_append, ih, map_singleton, foldl_cons, foldl_nil, toNat_digit h.1, Nat.ofDigits_cons]
    omega

theorem digitsVal_formatNat (n : Nat) : digitsVal (formatNat n) = n := by
  unfold formatNat
  split
  · rename_i h
    rw [h]
    decide
  · rw [digitsVal_digits fun d hd => Nat.digits_lt_base (by omega) hd, Nat.ofDigits_digits]

/-- **Round trip** within 64 bits. -/
theorem parseInt_formatNat (n : Nat) : parseInt (formatNat n) = if n < 2 ^ 63 then some (n : Int) else none := by
  have hd := formatNat_isDigit n
  have hv := digitsVal_formatNat n
  cases hs : formatNat n with
  | nil =>
    rw [hs] at hv
    rw [← hv] at hs
    cases hs
  | cons b t =>
    rw [hs, forall_mem_cons] at hd
    have hsg : ¬ (b = 43 ∨ b = 45) := by
      rintro (rfl | rfl) <;> exact absurd hd.1 (by decide)
    have ha : (b :: t).all isDigit = true := all_eq_true.2 (forall_mem_cons.2 hd)
    rw [hs] at hv
    have hds : (if b = 43 ∨ b = 45 then t else b :: t) = b :: t := if_neg hsg
    simp only [parseInt, hds]
    rw [if_neg (by simp [ha]), if_neg fun h => hsg (.inr h), hv]

end GoStr

namespace Json
open GoStr

theorem isNumByte_of_isDigit {b : UInt8} (h : isDigit b = true) : isNumByte b = true := by simp [isNumByte, h]
theorem dropWhile_isDigit {s : GoStr} (h : ∀ b ∈ s, isDigit b = true) : s.dropWhile isDigit = [] := dropWhile_eq_nil_iff.2 h

theorem validNumber_formatNat (n : Nat) : validNumber (formatNat n) = true := by
  by_cases hn : n = 0
  · subst hn
    decide
  · obtain ⟨b, t, hbt, hb⟩ := formatNat_cons hn
    have ha := formatNat_isDigit n
    rw [hbt] at ha ⊢
    have hd : isDigit b = true := ha b mem_cons_self
    have hm : b ≠ 45 := by
      rintro rfl
      exact absurd hd (by decide)
    have hr := dropWhile_isDigit fun x hx => ha x (mem_cons_of_mem b hx)
    simp [validNumber, hm, dropInt, hb, hd, hr, dropFrac, dropExp]

def Number.ofNat (n : Nat) : Number where
  raw := formatNat n
  ok := by
    rw [Bool.and_eq_true, List.all_eq_true]
    exact ⟨fun b hb => isNumByte_of_isDigit (formatNat_isDigit n b hb), validNumber_formatNat n⟩

end Json
end Sukko
