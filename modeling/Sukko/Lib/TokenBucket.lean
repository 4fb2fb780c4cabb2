import Mathlib.Algebra.Order.Field.Basic
import Mathlib.Tactic.Linarith
import Mathlib.Tactic.Ring
import Sukko.Lib.GoString
/-
# Token buckets

A bucket of `burst` tokens that starts full and is refilled at `limit` tokens a second, in exact rationals. The second part is
about any decisions on calls at given times: the bound on every time window (`conforms_iff`), and why allowing whatever the
bucket can pay for allows the most (`granted_le`).
-/

namespace Sukko.TokenBucket

structure Limiter where
  limit : ℚ
  burst : Int
  tokens : ℚ
  last : Time
deriving DecidableEq

def newLimiter (r : ℚ) (b : Int) : Limiter where
  limit := r
  burst := b
  tokens := b
  last := 0

namespace Limiter

def refill (l : Limiter) (now : Time) : ℚ := ((max 0 (now - l.last) : Int) : ℚ) * l.limit / second
def tokensAt (l : Limiter) (now : Time) : ℚ := min (l.burst : ℚ) (l.tokens + l.refill now)

def allow (l : Limiter) (now : Time) : Bool × Limiter :=
  if 1 ≤ l.tokensAt now then (true, { l with tokens := l.tokensAt now - 1, last := now }) else (false, l)

variable {l : Limiter} {now : Time}

theorem allow_true (h : 1 ≤ l.tokensAt now) :
    l.allow now = (true, { l with tokens := l.tokensAt now - 1, last := now }) := if_pos h

theorem allow_false (h : ¬1 ≤ l.tokensAt now) : l.allow now = (false, l) := if_neg h

theorem allow_fst : (l.allow now).1 = decide (1 ≤ l.tokensAt now) := by
  unfold allow
  split
  · rename_i h
    exact (decide_eq_true h).symm
  · rename_i h
    exact (decide_eq_false h).symm

end Limiter

/-! ## Decisions and their windows -/

section Decisions
variable {K : Type} [Field K] {d : ℕ → Bool}

def cost (allowed : Bool) : K := if allowed then 1 else 0
def granted (d : ℕ → Bool) (i j : ℕ) : ℕ := ((Finset.Ico i j).filter (d · = true)).card

theorem granted_succ {i j : ℕ} (h : i ≤ j) : (granted d i (j + 1) : K) = granted d i j + cost (d j) := by
  unfold granted cost
  rw [Nat.Ico_succ_right_eq_insert_Ico h, Finset.filter_insert]
  split
  · rw [Finset.card_insert_of_notMem (by simp), Nat.cast_add, Nat.cast_one]
  · rw [add_zero]

theorem granted_self (i : ℕ) : granted d i i = 0 := by simp [granted]

variable [LinearOrder K] {burst rate : K} {t : ℕ → K}

def ready (burst rate : K) (t : ℕ → K) (d : ℕ → Bool) : ℕ → K
  | 0 => burst
  | n + 1 => min burst (ready burst rate t d n - cost (d n) + rate * (t (n + 1) - t n))

/-- No window has more allowed calls than a full bucket and its refill during the window pay for. -/
def Conforms (burst rate : K) (t : ℕ → K) (d : ℕ → Bool) : Prop :=
  ∀ n s e, s ≤ e → (((Finset.range n).filter fun k => d k = true ∧ s ≤ t k ∧ t k ≤ e).card : K) ≤ burst + rate * (e - s)

theorem ready_le (n : ℕ) : ready burst rate t d n ≤ burst := by
  cases n with
  | zero => exact le_rfl
  | succ n => exact min_le_left _ _

theorem exists_window (burst rate : K) (t : ℕ → K) (d : ℕ → Bool) (j : ℕ) :
    ∃ i ≤ j, ready burst rate t d j = burst + rate * (t j - t i) - granted d i j := by
  induction j with
  | zero => exact ⟨0, le_rfl, by simp [ready, granted_self]⟩
  | succ j ih =>
    obtain ⟨i, hij, heq⟩ := ih
    rcases min_choice burst (ready burst rate t d j - cost (d j) + rate * (t (j + 1) - t j)) with hf | hl
    · exact ⟨j + 1, le_rfl, by simp [ready, hf, granted_self]⟩
    · refine ⟨i, hij.trans j.le_succ, ?_⟩
      rw [ready, hl, granted_succ hij, heq]
      ring

variable [IsStrictOrderedRing K]

theorem ready_le_window {i j : ℕ} (h : i ≤ j) : ready burst rate t d j ≤ burst + rate * (t j - t i) - granted d i j := by
  induction j, h using Nat.le_induction with
  | base => simpa [granted_self] using ready_le i
  | succ j hij ih =>
    rw [granted_succ hij]
    refine (min_le_right _ _).trans ?_
    linarith

/-- **A bucket that never goes below zero is what the windows ask for.** -/
theorem conforms_iff (hm : Monotone t) (hb : 0 ≤ burst) (hr : 0 ≤ rate) :
    Conforms burst rate t d ↔ ∀ n, cost (d n) ≤ ready burst rate t d n := by
  constructor
  · intro h n
    obtain ⟨i, hin, heq⟩ := exists_window burst rate t d n
    have hsb : granted d i (n + 1) ≤ ((Finset.range (n + 1)).filter fun k => d k = true ∧ t i ≤ t k ∧ t k ≤ t n).card := by
      refine Finset.card_le_card fun k hk => ?_
      simp only [Finset.mem_filter, Finset.mem_Ico, Finset.mem_range] at hk ⊢
      exact ⟨hk.1.2, hk.2, hm hk.1.1, hm (Nat.lt_succ_iff.1 hk.1.2)⟩
    have hw := (Nat.cast_le.2 hsb).trans (h (n + 1) (t i) (t n) (hm hin))
    rw [granted_succ hin] at hw
    linarith
  · intro h n s e hse
    rcases ((Finset.range n).filter fun k => d k = true ∧ s ≤ t k ∧ t k ≤ e).eq_empty_or_nonempty with hn | hs
    · rw [hn, Finset.card_empty, Nat.cast_zero]
      exact add_nonneg hb (mul_nonneg hr (sub_nonneg.2 hse))
    · -- the window from its first call to its last
      have hi := Finset.min'_mem _ hs
      have hj := Finset.max'_mem _ hs
      set i := Finset.min' _ hs
      set j := Finset.max' _ hs
      have hij : i ≤ j := Finset.min'_le_max' _ hs
      have hsb : ((Finset.range n).filter fun k => d k = true ∧ s ≤ t k ∧ t k ≤ e).card ≤ granted d i (j + 1) := by
        refine Finset.card_le_card fun k hk => ?_
        have hik := Finset.min'_le _ k hk
        have hkj := Finset.le_max' _ k hk
        simp only [Finset.mem_filter, Finset.mem_Ico] at hk ⊢
        exact ⟨⟨hik, Nat.lt_succ_iff.2 hkj⟩, hk.2.1⟩
      have hl := (h j).trans (ready_le_window hij)
      have hsp : rate * (t j - t i) ≤ rate * (e - s) := by
        simp only [Finset.mem_filter] at hi hj
        exact mul_le_mul_of_nonneg_left (by linarith [hi.2.2.1, hj.2.2.2]) hr
      have hc := (Nat.cast_le (α := K)).2 hsb
      rw [granted_succ hij] at hc
      linarith

variable {g : ℕ → Bool}

theorem exchange (hd : ∀ n, cost (d n) ≤ ready burst rate t d n) (hg : ∀ n, g n = true ↔ 1 ≤ ready burst rate t g n) (n : ℕ) :
    (granted d 0 n : K) ≤ granted g 0 n ∧
      ready burst rate t d n - ready burst rate t g n ≤ (granted g 0 n : K) - granted d 0 n := by
  induction n with
  | zero => simp [granted_self, ready]
  | succ n ih =>
    obtain ⟨hle, hgp⟩ := ih
    rw [granted_succ n.zero_le, granted_succ n.zero_le]
    have hn : (granted d 0 n : K) + cost (d n) ≤ granted g 0 n + cost (g n) := by
      have hdn := hd n
      cases hgn : g n with
      | true =>
        have hc : (cost (d n) : K) ≤ 1 := by
          unfold cost
          split <;> simp
        simpa [cost] using add_le_add hle hc
      | false =>
        have he : ready burst rate t g n < 1 := not_le.1 (mt (hg n).2 (by simp [hgn]))
        cases hdn' : d n with
        | false => simpa [cost] using hle
        | true =>
          -- the other sequence has a token that this one has not, so it has allowed less
          rw [hdn', cost, if_pos rfl] at hdn
          have hlt : (granted d 0 n : K) < granted g 0 n := by linarith
          simpa [cost] using Nat.cast_le.2 (Nat.succ_le_of_lt (Nat.cast_lt.1 hlt))
    refine ⟨hn, ?_⟩
    rw [sub_le_iff_le_add', ready, ready, ← min_add_add_right]
    exact le_min ((min_le_left _ _).trans (by linarith)) ((min_le_right _ _).trans (by linarith))

/-- **Greedy is optimal**: no sequence of decisions that keeps to the windows has allowed more calls, up to any time. -/
theorem granted_le (hmn : Monotone t) (hb : 0 ≤ burst) (hr : 0 ≤ rate) (hd : Conforms burst rate t d)
    (hg : ∀ n, g n = true ↔ 1 ≤ ready burst rate t g n) (n : ℕ) (e : K) :
    ((Finset.range n).filter fun k => d k = true ∧ t k ≤ e).card ≤ ((Finset.range n).filter fun k => g k = true ∧ t k ≤ e).card := by
  -- the calls up to a time are the first ones
  obtain ⟨m, hm⟩ : ∃ m, ∀ k, k < n ∧ t k ≤ e ↔ k < m := by
    induction n with
    | zero => exact ⟨0, by simp⟩
    | succ n ih =>
      obtain ⟨m, hm⟩ := ih
      by_cases hn : t n ≤ e
      · exact ⟨n + 1, fun k => ⟨And.left, fun hk => ⟨hk, (hmn (Nat.lt_succ_iff.1 hk)).trans hn⟩⟩⟩
      · refine ⟨m, fun k => ?_⟩
        rw [← hm k, Nat.lt_succ_iff, Nat.le_iff_lt_or_eq]
        grind
  have hf (f : ℕ → Bool) : ((Finset.range n).filter fun k => f k = true ∧ t k ≤ e) = (Finset.Ico 0 m).filter (f · = true) := by
    ext k
    have := hm k
    simp
    tauto
  rw [hf, hf]
  exact Nat.cast_le.1 (exchange ((conforms_iff hmn hb hr).1 hd) hg m).1

end Decisions
end Sukko.TokenBucket
