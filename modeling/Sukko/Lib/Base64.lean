import Sukko.Lib.Utf8
/-
# Base64 for URLs, without padding

`base64.RawURLEncoding` of the Go library. `decode` skips line breaks and ignores the bits of the last digit that belong to no
byte, as the library does.
-/

namespace Sukko.Base64
open List

/-- The alphabet for URLs. -/
def digit (n : Nat) : UInt8 :=
  if n < 26 then .ofNat (65 + n)
  else if n < 52 then .ofNat (71 + n)
  else if n < 62 then .ofNat (n - 4)
  else if n = 62 then 45
  else 95

def value (b : UInt8) : Option Nat :=
  let n := b.toNat
  if 65 ≤ n ∧ n ≤ 90 then some (n - 65)
  else if 97 ≤ n ∧ n ≤ 122 then some (n - 71)
  else if 48 ≤ n ∧ n ≤ 57 then some (n + 4)
  else if n = 45 then some 62
  else if n = 95 then some 63
  else none

def first (a : Nat) : Nat := a / 4
def second (a b : Nat) : Nat := a % 4 * 16 + b / 16
def third (b c : Nat) : Nat := b % 16 * 4 + c / 64
def fourth (c : Nat) : Nat := c % 64

/-- Three bytes become four digits; one or two bytes at the end, two or three. -/
def encode : GoStr → GoStr
  | [] => []
  | [a] => [digit (first a.toNat), digit (second a.toNat 0)]
  | [a, b] => [digit (first a.toNat), digit (second a.toNat b.toNat), digit (third b.toNat 0)]
  | a :: b :: c :: s =>
    digit (first a.toNat) :: digit (second a.toNat b.toNat) :: digit (third b.toNat c.toNat) :: digit (fourth c.toNat) ::
      encode s

def byte1 (p q : Nat) : UInt8 := .ofNat (p * 4 + q / 16)
def byte2 (q r : Nat) : UInt8 := .ofNat (q % 16 * 16 + r / 4)
def byte3 (r s : Nat) : UInt8 := .ofNat (r % 4 * 64 + s)

/-- The bytes of decoded digits; one digit alone is an error. -/
def bytes : List Nat → Option GoStr
  | [] => some []
  | [_] => none
  | [p, q] => some [byte1 p q]
  | [p, q, r] => some [byte1 p q, byte2 q r]
  | p :: q :: r :: s :: vs => (bytes vs).map fun t => byte1 p q :: byte2 q r :: byte3 r s :: t

def isBreak (b : UInt8) : Bool := b == 10 || b == 13
def decode (s : GoStr) : Option GoStr := ((s.filter (!isBreak ·)).mapM value).bind bytes

/-! ## Round trip -/

theorem digit_spec : ∀ n < 64, value (digit n) = some n ∧ isBreak (digit n) = false ∧
    32 < (digit n).toNat ∧ (digit n).toNat < 128 := by decide +kernel

theorem first_lt {a : UInt8} : first a.toNat < 64 := by
  have := a.toNat_lt
  unfold first
  omega

theorem second_lt (a : UInt8) {b : Nat} (h : b < 256) : second a.toNat b < 64 := by
  unfold second
  omega

theorem third_lt (b : UInt8) {c : Nat} (h : c < 256) : third b.toNat c < 64 := by
  unfold third
  omega

theorem fourth_lt (c : UInt8) : fourth c.toNat < 64 := Nat.mod_lt _ (by decide)

theorem byte1_eq (a : UInt8) {b : Nat} (h : b < 256) : byte1 (first a.toNat) (second a.toNat b) = a := by
  have hv : first a.toNat * 4 + second a.toNat b / 16 = a.toNat := by
    unfold first second
    omega
  rw [byte1, hv, UInt8.ofNat_toNat]

theorem byte2_eq (a b : UInt8) {c : Nat} (h : c < 256) : byte2 (second a.toNat b.toNat) (third b.toNat c) = b := by
  have hb := b.toNat_lt
  have hv : second a.toNat b.toNat % 16 * 16 + third b.toNat c / 4 = b.toNat := by
    unfold second third
    omega
  rw [byte2, hv, UInt8.ofNat_toNat]

theorem byte3_eq (b c : UInt8) : byte3 (third b.toNat c.toNat) (fourth c.toNat) = c := by
  have hc := c.toNat_lt
  have hv : third b.toNat c.toNat % 4 * 64 + fourth c.toNat = c.toNat := by
    unfold third fourth
    omega
  rw [byte3, hv, UInt8.ofNat_toNat]

def values : GoStr → List Nat
  | [] => []
  | [a] => [first a.toNat, second a.toNat 0]
  | [a, b] => [first a.toNat, second a.toNat b.toNat, third b.toNat 0]
  | a :: b :: c :: s =>
    first a.toNat :: second a.toNat b.toNat :: third b.toNat c.toNat :: fourth c.toNat :: values s

theorem encode_eq (s : GoStr) : encode s = (values s).map digit := by
  fun_induction encode s with
  | case1 => rfl
  | case2 a => rfl
  | case3 a b => rfl
  | case4 a b c s ih => rw [values, ih]; rfl

theorem values_lt (s : GoStr) : ∀ n ∈ values s, n < 64 := by
  fun_induction values s with
  | case1 => simp
  | case2 a => simpa using ⟨first_lt, second_lt a (by decide)⟩
  | case3 a b => simpa using ⟨first_lt, second_lt a b.toNat_lt, third_lt b (by decide)⟩
  | case4 a b c s ih =>
    simp only [forall_mem_cons]
    exact ⟨first_lt, second_lt a b.toNat_lt, third_lt b c.toNat_lt, fourth_lt c, ih⟩

theorem bytes_values (s : GoStr) : bytes (values s) = some s := by
  fun_induction values s with
  | case1 => rfl
  | case2 a => rw [bytes, byte1_eq a (by decide)]
  | case3 a b => rw [bytes, byte1_eq a b.toNat_lt, byte2_eq a b (by decide)]
  | case4 a b c s ih =>
    rw [bytes, ih, Option.map_some, byte1_eq a b.toNat_lt, byte2_eq a b c.toNat_lt, byte3_eq]

theorem mem_encode {s : GoStr} {b : UInt8} (h : b ∈ encode s) : ∃ n < 64, b = digit n := by
  rw [encode_eq] at h
  obtain ⟨n, hn, rfl⟩ := mem_map.1 h
  exact ⟨n, values_lt s n hn, rfl⟩

theorem mapM_value {vs : List Nat} (h : ∀ n ∈ vs, n < 64) : (vs.map digit).mapM value = some vs := by
  induction vs with
  | nil => rfl
  | cons n vs ih =>
    rw [forall_mem_cons] at h
    rw [map_cons, mapM_cons, (digit_spec n h.1).1, ih h.2]
    rfl

theorem decode_encode (s : GoStr) : decode (encode s) = some s := by
  have hk : (encode s).filter (!isBreak ·) = encode s := by
    refine filter_eq_self.2 fun b hb => ?_
    obtain ⟨n, hn, rfl⟩ := mem_encode hb
    rw [(digit_spec n hn).2.1]
    rfl
  rw [decode, hk, encode_eq, mapM_value (values_lt s), Option.bind_some, bytes_values]

end Sukko.Base64
