import Mathlib.Tactic.Ring
import Mathlib.Tactic.Positivity
import Sukko.Server.Reconnect
/-
# Retries of a dead letter

The delay doubles with every attempt and is cut at the maximum, but the product is made first and may wrap.
-/

namespace Sukko.Kafka
open Server (wrapInt64)

/-- See `server/kafka/dlq_worker.go:31`. -/
structure DLQConfig where
  maxRetries : Int
  baseDelay : Int
  maxDelay : Int
  workers : Int
  maxDelay_lt : maxDelay < 2 ^ 63

inductive DLQConfigErr
  | mustBePositive (setting : String) (value : Int)
  | mustBeBelow (base max : Int)
deriving DecidableEq

/-- The checks of `ServerConfig.Validate` on it (`shared/platform/server_config.go:1032-1046`). -/
def validateDLQ (c : DLQConfig) : Except DLQConfigErr Unit :=
  if c.maxRetries < 1 then .error (.mustBePositive "WS_ROUTING_DLQ_MAX_RETRIES" c.maxRetries)
  else if c.workers < 1 then .error (.mustBePositive "WS_ROUTING_DLQ_RETRY_WORKERS" c.workers)
  else if c.baseDelay ≤ 0 then .error (.mustBePositive "WS_ROUTING_DLQ_BASE_DELAY" c.baseDelay)
  else if c.maxDelay ≤ 0 then .error (.mustBePositive "WS_ROUTING_DLQ_MAX_DELAY" c.maxDelay)
  else if c.maxDelay ≤ c.baseDelay then .error (.mustBeBelow c.baseDelay c.maxDelay)
  else .ok ()

/-- The delay between two attempts (`dlq_worker.go:141`). -/
def delay (c : DLQConfig) (attempt : Nat) : Int := min (wrapInt64 (c.baseDelay * wrapInt64 (2 ^ attempt))) c.maxDelay

inductive Attempt
  | written
  | failed (cancelled : Bool)

inductive DLQResult
  | written
  | dropped
  | retrying
deriving DecidableEq

/-- See `dlq_worker.go:121`. -/
def process (c : DLQConfig) : Nat → List Attempt → List Int × DLQResult
  | _, [] => ([], .retrying)
  | _, .written :: _ => ([], .written)
  | attempt, .failed cancelled :: rest =>
    if (attempt : Int) = c.maxRetries then ([], .dropped)
    else if cancelled then ([delay c attempt], .dropped)
    else (delay c attempt :: (process c (attempt + 1) rest).1, (process c (attempt + 1) rest).2)

/-! ## Arithmetic that wraps around -/

theorem wrapInt64_mul (x y : Int) : wrapInt64 (x * wrapInt64 y) = wrapInt64 (x * y) := by
  have hy : wrapInt64 y = y + 2 ^ 64 * -((y + 2 ^ 63) / 2 ^ 64) := by
    unfold wrapInt64
    omega
  have hs : x * wrapInt64 y + 2 ^ 63 = x * y + 2 ^ 63 + 2 ^ 64 * (x * -((y + 2 ^ 63) / 2 ^ 64)) := by
    rw [hy]
    ring
  rw [wrapInt64, hs, Int.add_mul_emod_self_left, wrapInt64]

variable {c : DLQConfig}

theorem delay_eq (attempt : Nat) : delay c attempt = min (wrapInt64 (c.baseDelay * 2 ^ attempt)) c.maxDelay := by
  rw [delay, wrapInt64_mul]

theorem validateDLQ_eq_ok (h : validateDLQ c = .ok ()) : 1 ≤ c.maxRetries ∧ 0 < c.baseDelay ∧ c.baseDelay < c.maxDelay := by
  unfold validateDLQ at h
  grind

theorem delay_bounds {attempt n : Nat} (hb : 0 < c.baseDelay) (hm : c.baseDelay < c.maxDelay) (hle : attempt ≤ n)
    (hf : c.baseDelay * 2 ^ n < 2 ^ 63) : 0 < delay c attempt ∧ delay c attempt ≤ c.maxDelay := by
  have hp : (2 : Int) ^ attempt ≤ 2 ^ n := pow_le_pow_right₀ (by decide) hle
  have hps : 0 < c.baseDelay * 2 ^ attempt := by positivity
  have hs : c.baseDelay * 2 ^ attempt ≤ c.baseDelay * 2 ^ n := Int.mul_le_mul_of_nonneg_left hp (by omega)
  rw [delay_eq, wrapInt64]
  omega

theorem delay_neg {n : Nat} (hb : 0 < c.baseDelay) (hm : c.baseDelay < c.maxDelay)
    (ho : 2 ^ 63 ≤ c.baseDelay * 2 ^ n) : ∃ attempt ≤ n, delay c attempt < 0 := by
  have hlt := c.maxDelay_lt
  have hex : ∃ a, 2 ^ 63 ≤ c.baseDelay * 2 ^ a := ⟨n, ho⟩
  refine ⟨Nat.find hex, Nat.find_min' hex ho, ?_⟩
  have hf := Nat.find_spec hex
  have hz : Nat.find hex ≠ 0 := by
    intro hz
    rw [hz, pow_zero] at hf
    omega
  obtain ⟨a, ha⟩ := Nat.exists_eq_succ_of_ne_zero hz
  have hp := Nat.find_min hex (ha ▸ Nat.lt_succ_self a)
  have hd : c.baseDelay * 2 ^ (a + 1) = 2 * (c.baseDelay * 2 ^ a) := by ring
  rw [ha, Nat.succ_eq_add_one, hd] at hf
  rw [ha, delay_eq, Nat.succ_eq_add_one, hd, wrapInt64]
  omega

/-- The last attempt has no delay after it. -/
theorem mem_process {attempt : Nat} {outcomes : List Attempt} {d : Int} (hs : (attempt : Int) ≤ c.maxRetries)
    (h : d ∈ (process c attempt outcomes).1) : ∃ a : Nat, (a : Int) < c.maxRetries ∧ d = delay c a := by
  induction outcomes generalizing attempt with
  | nil => cases h
  | cons o outcomes ih =>
    cases o with
    | written => cases h
    | failed cancelled =>
      unfold process at h
      split at h
      · cases h
      rename_i hne
      split at h
      · exact ⟨attempt, by omega, List.mem_singleton.1 h⟩
      · rcases List.mem_cons.1 h with rfl | h
        · exact ⟨attempt, by omega, rfl⟩
        · exact ih (by omega) h

/-- Every other attempt has, when all fail. -/
theorem delay_mem_process (n attempt : Nat) (h : (attempt + n : Int) < c.maxRetries) :
    delay c (attempt + n) ∈ (process c attempt (List.replicate (n + 1) (.failed false))).1 := by
  induction n generalizing attempt with
  | zero => simp [process, show ¬(attempt : Int) = c.maxRetries by omega]
  | succ n ih =>
    have hn := ih (attempt + 1) (by omega)
    rw [Nat.add_right_comm] at hn
    rw [List.replicate_succ, process, if_neg (by omega), if_neg (by decide)]
    exact List.mem_cons_of_mem _ hn

/-- **Retry delays are bounded** by the maximum, and positive, for a valid configuration just if the product of the last delay
that is waited fits. -/
theorem delays_bounded_iff (c : DLQConfig) (hvalid : validateDLQ c = .ok ()) :
    (∀ outcomes, ∀ d ∈ (process c 0 outcomes).1, 0 < d ∧ d ≤ c.maxDelay) ↔
      c.baseDelay * 2 ^ (c.maxRetries.toNat - 1) < 2 ^ 63 := by
  obtain ⟨hretries, hbase, hmax⟩ := validateDLQ_eq_ok hvalid
  constructor
  · intro hall
    by_contra hover
    obtain ⟨attempt, hle, hneg⟩ := delay_neg hbase hmax (Int.not_lt.1 hover)
    have hmem := delay_mem_process (c := c) attempt 0 (by omega)
    rw [Nat.zero_add] at hmem
    exact absurd (hall _ _ hmem).1 (by omega)
  · intro hfit outcomes d hd
    obtain ⟨a, ha, rfl⟩ := mem_process (by omega) hd
    exact delay_bounds hbase hmax (by omega) hfit

def retryConfig (maxRetries : Int) : DLQConfig := ⟨maxRetries, 100000000, 5000000000, 4, by decide⟩

/-- 37 retries are the most for the default delays. -/
theorem delays_bounded_iff_default : validateDLQ (retryConfig 37) = .ok () ∧
    ∀ outcomes, ∀ d ∈ (process (retryConfig 37) 0 outcomes).1, 0 < d ∧ d ≤ 5000000000 :=
  ⟨by decide, (delays_bounded_iff (retryConfig 37) (by decide)).2 (by decide)⟩

/-- **Bug**: with the default delays and 38 retries, the delay of attempt 37 is negative: `time.After` fires at once. -/
theorem retry_delay_wraps : validateDLQ (retryConfig 38) = .ok () ∧ delay (retryConfig 38) 37 < 0 ∧
    delay (retryConfig 38) 37 ∈ (process (retryConfig 38) 0 (List.replicate 38 (.failed false))).1 := by
  decide +kernel

end Sukko.Kafka
