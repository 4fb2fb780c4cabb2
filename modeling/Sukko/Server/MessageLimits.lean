import Sukko.Lib.TokenBucket
/-
# The rate limit on a client's messages

Numbers of an ordered field stand for `float64` and for times.
-/

namespace Sukko.Server
open TokenBucket

structure TokenBucket (K : Type) where
  tokens : K
  maxTokens : K
  refillRate : K
  lastRefill : K
deriving DecidableEq

variable {K : Type}

/-- See `server/limits/rate_limiter.go:143`. -/
def newTokenBucket (maxTokens refillRate now : K) : TokenBucket K where
  tokens := maxTokens
  maxTokens := maxTokens
  refillRate := refillRate
  lastRefill := now

namespace TokenBucket
variable [Field K] [LinearOrder K]

def available (tb : TokenBucket K) (now : K) : K :=
  let elapsed := now - tb.lastRefill
  let tokens := tb.tokens + elapsed * tb.refillRate
  if tb.maxTokens < tokens then tb.maxTokens else tokens

def tryConsume (tb : TokenBucket K) (tokens now : K) : Bool × TokenBucket K :=
  if tokens ≤ tb.available now then (true, { tb with tokens := tb.available now - tokens, lastRefill := now })
  else (false, { tb with tokens := tb.available now, lastRefill := now })

theorem available_eq (tb : TokenBucket K) (now : K) :
    tb.available now = min tb.maxTokens (tb.tokens + (now - tb.lastRefill) * tb.refillRate) := by
  unfold available
  dsimp only
  split
  · rename_i h
    exact (min_eq_left h.le).symm
  · rename_i h
    exact (min_eq_right (not_lt.1 h)).symm

theorem tryConsume_one (tb : TokenBucket K) (now : K) : tb.tryConsume 1 now = (decide (1 ≤ tb.available now),
      { tb with tokens := tb.available now - cost (decide (1 ≤ tb.available now)), lastRefill := now }) := by
  unfold tryConsume cost
  split <;> simp [*]

end TokenBucket

/-! ## The limiter -/

structure RateLimiter (K : Type) where
  clients : List (ℕ × TokenBucket K)
  burstLimit : K
  ratePerSec : K
deriving DecidableEq

namespace RateLimiter

def ids (rl : RateLimiter K) : List ℕ := rl.clients.map Prod.fst

def removeClient (rl : RateLimiter K) (clientID : ℕ) : RateLimiter K :=
  { rl with clients := rl.clients.filter fun e => e.1 ≠ clientID }

variable {rl : RateLimiter K} {i : ℕ}

theorem ids_removeClient (rl : RateLimiter K) (i : ℕ) : (rl.removeClient i).ids = rl.ids.filter (· ≠ i) := by
  simp only [removeClient, ids, List.filter_map, Function.comp_def]

theorem lookup_eq_none_iff : rl.clients.lookup i = none ↔ i ∉ rl.ids := by
  rw [List.lookup_eq_none_iff]
  simp only [ids, List.mem_map, not_exists, not_and]
  constructor
  · intro h e he hi
    exact (by simpa [hi] using h e he)
  · intro h e he
    simpa using Ne.symm (h e he)

variable [Field K] [LinearOrder K]

/-- See `server/limits/rate_limiter.go:263`. -/
def checkLimit (rl : RateLimiter K) (clientID : ℕ) (created now : K) : Bool × RateLimiter K :=
  match rl.clients.lookup clientID with
  | some tb =>
    let r := tb.tryConsume 1 now
    (r.1, { rl with clients := rl.clients.map fun e => if e.1 = clientID then (e.1, r.2) else e })
  | none =>
    let r := (newTokenBucket rl.burstLimit rl.ratePerSec created).tryConsume 1 now
    (r.1, { rl with clients := (clientID, r.2) :: rl.clients })

theorem ids_checkLimit (rl : RateLimiter K) (i : ℕ) (created now : K) :
    (rl.checkLimit i created now).2.ids = if i ∈ rl.ids then rl.ids else i :: rl.ids := by
  unfold checkLimit
  cases hl : rl.clients.lookup i with
  | none => rw [if_neg (lookup_eq_none_iff.1 hl)]; rfl
  | some tb =>
    have hi : i ∈ rl.ids := by
      by_contra hno
      rw [lookup_eq_none_iff.2 hno] at hl
      cases hl
    rw [if_pos hi]
    simp only [ids, List.map_map]
    refine List.map_congr_left fun e _ => ?_
    simp only [Function.comp_apply]
    split <;> rfl

end RateLimiter

/-! ## A sequence of calls -/

variable [Field K] [LinearOrder K]

def bucketAt (tb : TokenBucket K) (t : ℕ → K) : ℕ → TokenBucket K
  | 0 => tb
  | n + 1 => ((bucketAt tb t n).tryConsume 1 (t n)).2

def allows (tb : TokenBucket K) (t : ℕ → K) (n : ℕ) : Bool := ((bucketAt tb t n).tryConsume 1 (t n)).1

variable {tb : TokenBucket K} {t : ℕ → K} {n : ℕ}

theorem allows_iff : allows tb t n = true ↔ 1 ≤ (bucketAt tb t n).available (t n) := by
  rw [allows, TokenBucket.tryConsume_one, decide_eq_true_iff]

theorem cost_le_of_nonneg (h : 0 ≤ (bucketAt tb t n).available (t n)) :
    cost (allows tb t n) ≤ (bucketAt tb t n).available (t n) := by
  cases ha : allows tb t n with
  | true => exact allows_iff.1 ha
  | false => exact h

theorem bucketAt_succ (tb : TokenBucket K) (t : ℕ → K) (n : ℕ) : bucketAt tb t (n + 1) = { bucketAt tb t n with
        tokens := (bucketAt tb t n).available (t n) - cost (allows tb t n), lastRefill := t n } := by
  rw [bucketAt, allows, TokenBucket.tryConsume_one]

theorem bucketAt_params (tb : TokenBucket K) (t : ℕ → K) (n : ℕ) :
    (bucketAt tb t n).maxTokens = tb.maxTokens ∧ (bucketAt tb t n).refillRate = tb.refillRate := by
  induction n with
  | zero => exact ⟨rfl, rfl⟩
  | succ n ih =>
    rw [bucketAt_succ]
    exact ih

section Conformance
variable [IsStrictOrderedRing K] {maxTokens refillRate start : K}

theorem available_bucketAt (maxTokens : K) (hrt : 0 < refillRate) (hs : start ≤ t 0) (n : ℕ) :
    (bucketAt (newTokenBucket maxTokens refillRate start) t n).available (t n) =
      ready maxTokens refillRate t (allows (newTokenBucket maxTokens refillRate start) t) n := by
  induction n with
  | zero =>
    have hrf : 0 ≤ (t 0 - start) * refillRate := mul_nonneg (sub_nonneg.2 hs) hrt.le
    rw [TokenBucket.available_eq]
    exact min_eq_left (by simpa [bucketAt, newTokenBucket] using hrf)
  | succ n ih =>
    obtain ⟨hm, hr⟩ := bucketAt_params (newTokenBucket maxTokens refillRate start) t n
    rw [TokenBucket.available_eq, bucketAt_succ, ready, ← ih]
    dsimp only
    rw [hm, hr, mul_comm]
    rfl

theorem available_nonneg (hmx : 1 ≤ maxTokens) (hr : 0 < refillRate) (hs : start ≤ t 0) (hm : Monotone t) (n : ℕ) :
    0 ≤ (bucketAt (newTokenBucket maxTokens refillRate start) t n).available (t n) := by
  induction n with
  | zero =>
    rw [available_bucketAt maxTokens hr hs]
    exact zero_le_one.trans hmx
  | succ n ih =>
    have hsp := cost_le_of_nonneg ih
    have hrf : 0 ≤ refillRate * (t (n + 1) - t n) := mul_nonneg hr.le (sub_nonneg.2 (hm n.le_succ))
    rw [available_bucketAt maxTokens hr hs] at hsp ⊢
    exact le_min (zero_le_one.trans hmx) (by linarith)

/-- **The token bucket keeps to its windows, and no other decisions do better.** -/
theorem tokenBucket_conforms (hmax : 1 ≤ maxTokens) (hrate : 0 < refillRate) (hstart : start ≤ t 0) (hmono : Monotone t) :
    (∀ n, 0 ≤ (bucketAt (newTokenBucket maxTokens refillRate start) t n).tokens ∧
      (bucketAt (newTokenBucket maxTokens refillRate start) t n).tokens ≤ maxTokens) ∧
    Conforms maxTokens refillRate t (allows (newTokenBucket maxTokens refillRate start) t) ∧
    (∀ n, allows (newTokenBucket maxTokens refillRate start) t n = false ↔
      (bucketAt (newTokenBucket maxTokens refillRate start) t n).available (t n) < 1) ∧
    ∀ d, Conforms maxTokens refillRate t d → ∀ n e, ((Finset.range n).filter fun k => d k = true ∧ t k ≤ e).card ≤
        ((Finset.range n).filter fun k => allows (newTokenBucket maxTokens refillRate start) t k = true ∧ t k ≤ e).card := by
  have hmax0 : 0 ≤ maxTokens := zero_le_one.trans hmax
  have hlevel := available_nonneg hmax hrate hstart hmono
  have hready := available_bucketAt maxTokens hrate hstart
  refine ⟨fun n => ?_, ?_, fun n => ?_, fun d hd n e => ?_⟩
  · cases n with
    | zero => exact ⟨hmax0, le_rfl⟩
    | succ n =>
      rw [bucketAt_succ]
      refine ⟨sub_nonneg.2 (cost_le_of_nonneg (hlevel n)), ?_⟩
      have hcost : (0 : K) ≤ cost (allows (newTokenBucket maxTokens refillRate start) t n) := by
        unfold cost
        split <;> simp
      exact (sub_le_self _ hcost).trans ((hready n).trans_le (ready_le n))
  · refine (conforms_iff hmono hmax0 hrate.le).2 fun n => ?_
    rw [← hready]
    exact cost_le_of_nonneg (hlevel n)
  · rw [← not_le, ← allows_iff, Bool.not_eq_true]
  · refine granted_le hmono hmax0 hrate.le hd (fun k => ?_) n e
    rw [← hready, allows_iff]

theorem tokenBucket_conforms_burst :
    (List.range 5).map (allows (newTokenBucket (2 : ℚ) 1 0) fun n => (n : ℚ) / 4) = [true, true, false, false, true] ∧
      Conforms (2 : ℚ) 1 (fun n => (n : ℚ) / 4) (allows (newTokenBucket 2 1 0) fun n => (n : ℚ) / 4) := by
  refine ⟨by decide +kernel, (tokenBucket_conforms one_le_two one_pos (by norm_num) fun i j h => ?_).2.1⟩
  have hcast : (i : ℚ) ≤ j := Nat.cast_le.2 h
  linarith

end Conformance
end Sukko.Server
