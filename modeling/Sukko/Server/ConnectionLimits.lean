import Sukko.Lib.TokenBucket
/-
# Admission of connections: a global bucket and one for each IP

An attempt takes a token of the global bucket before one of its IP's. Two runs are compared by what the next attempt reads
(`limiterOf`).

**x/time/rate boundary**: `rate.Limiter` is an exact token bucket (`Lib/TokenBucket`). The times that one attempt reads are one
time.
-/

namespace Sukko.ConnectionLimits
open TokenBucket

structure IpLimiterEntry where
  limiter : Limiter
  lastAccess : Time
deriving DecidableEq

structure ConnectionRateLimiterConfig where
  ipBurst : Int
  ipRate : ℚ
  ipTTL : Time
  globalBurst : Int
  globalRate : ℚ

structure ConnectionRateLimiter where
  ipLimiters : GoStr → Option IpLimiterEntry
  ipBurst : Int
  ipRate : ℚ
  ipTTL : Time
  globalLimiter : Limiter

/-- See `server/limits/connection_rate_limiter.go:75`. -/
def newConnectionRateLimiter (config : ConnectionRateLimiterConfig) : ConnectionRateLimiter where
  ipLimiters := fun _ => none
  ipBurst := config.ipBurst
  ipRate := config.ipRate
  ipTTL := config.ipTTL
  globalLimiter := newLimiter config.globalRate config.globalBurst

inductive Verdict
  | allowed
  | global
  | perIP
deriving DecidableEq

structure Attempt where
  ip : GoStr
  time : Time
deriving DecidableEq

namespace ConnectionRateLimiter

def setEntry (crl : ConnectionRateLimiter) (ip : GoStr) (entry : IpLimiterEntry) : ConnectionRateLimiter :=
  { crl with ipLimiters := Function.update crl.ipLimiters ip (some entry) }

/-- See `server/limits/connection_rate_limiter.go:168`. -/
def getIPLimiter (crl : ConnectionRateLimiter) (ip : GoStr) (now : Time) : Limiter × ConnectionRateLimiter :=
  match crl.ipLimiters ip with
  | some entry => (entry.limiter, crl.setEntry ip { entry with lastAccess := now })
  | none =>
    let limiter := newLimiter crl.ipRate crl.ipBurst
    (limiter, crl.setEntry ip { limiter, lastAccess := now })

/-- See `server/limits/connection_rate_limiter.go:134`. -/
def checkConnectionAllowed (crl : ConnectionRateLimiter) (x : Attempt) : Verdict × ConnectionRateLimiter :=
  let global := crl.globalLimiter.allow x.time
  let crl := { crl with globalLimiter := global.2 }
  if global.1 = false then (.global, crl)
  else
    let (limiter, crl) := crl.getIPLimiter x.ip x.time
    let allow := limiter.allow x.time
    -- the limiter is shared with the entry, which `getIPLimiter` has just stamped
    let crl := crl.setEntry x.ip { limiter := allow.2, lastAccess := x.time }
    (if allow.1 = false then .perIP else .allowed, crl)

def checks : ConnectionRateLimiter → List Attempt → List (Attempt × Verdict)
  | _, [] => []
  | crl, x :: xs => (x, (crl.checkConnectionAllowed x).1) :: checks (crl.checkConnectionAllowed x).2 xs

def limiterOf (crl : ConnectionRateLimiter) (ip : GoStr) : Limiter :=
  ((crl.ipLimiters ip).map (·.limiter)).getD (newLimiter crl.ipRate crl.ipBurst)

/-! ## What a check reads and writes -/

variable {crl : ConnectionRateLimiter} {x : Attempt}

theorem getIPLimiter_eq (ip : GoStr) (now : Time) :
    crl.getIPLimiter ip now = (crl.limiterOf ip, crl.setEntry ip { limiter := crl.limiterOf ip, lastAccess := now }) := by
  unfold getIPLimiter limiterOf
  cases crl.ipLimiters ip <;> rfl

theorem setEntry_setEntry (ip : GoStr) (e e' : IpLimiterEntry) : (crl.setEntry ip e).setEntry ip e' = crl.setEntry ip e' := by
  simp [setEntry]

theorem limiterOf_setEntry (ip ip' : GoStr) (e : IpLimiterEntry) :
    (crl.setEntry ip e).limiterOf ip' = if ip' = ip then e.limiter else crl.limiterOf ip' := by
  unfold limiterOf setEntry
  by_cases h : ip' = ip
  · subst h
    simp
  · simp [h]

theorem check_global (h : ¬1 ≤ crl.globalLimiter.tokensAt x.time) : crl.checkConnectionAllowed x = (.global, crl) := by
  simp [checkConnectionAllowed, Limiter.allow_false h]

theorem check_perIP (h : 1 ≤ crl.globalLimiter.tokensAt x.time) : crl.checkConnectionAllowed x =
    (if 1 ≤ (crl.limiterOf x.ip).tokensAt x.time then .allowed else .perIP,
      { crl with globalLimiter := (crl.globalLimiter.allow x.time).2 }.setEntry x.ip
        { limiter := ((crl.limiterOf x.ip).allow x.time).2, lastAccess := x.time }) := by
  have hl : ({ crl with globalLimiter := (crl.globalLimiter.allow x.time).2 } : ConnectionRateLimiter).limiterOf x.ip =
      crl.limiterOf x.ip := rfl
  have hok : (crl.globalLimiter.allow x.time).1 ≠ false := by simp [Limiter.allow_fst, h]
  simp only [checkConnectionAllowed, if_neg hok, getIPLimiter_eq, setEntry_setEntry, hl]
  by_cases hip : 1 ≤ (crl.limiterOf x.ip).tokensAt x.time
  · simp [Limiter.allow_true hip, hip]
  · simp [Limiter.allow_false hip, hip]

theorem verdict_eq : (crl.checkConnectionAllowed x).1 =
    if 1 ≤ crl.globalLimiter.tokensAt x.time then
      if 1 ≤ (crl.limiterOf x.ip).tokensAt x.time then .allowed else .perIP
    else .global := by
  by_cases h : 1 ≤ crl.globalLimiter.tokensAt x.time
  · rw [check_perIP h, if_pos h]
  · rw [check_global h, if_neg h]

theorem allowed_iff : (crl.checkConnectionAllowed x).1 = .allowed ↔
    1 ≤ crl.globalLimiter.tokensAt x.time ∧ 1 ≤ (crl.limiterOf x.ip).tokensAt x.time := by
  rw [verdict_eq]
  split <;> rename_i hg
  · split <;> rename_i hip <;> simp [hg, hip]
  · simp [hg]

theorem globalLimiter_check : (crl.checkConnectionAllowed x).2.globalLimiter = (crl.globalLimiter.allow x.time).2 := by
  by_cases h : 1 ≤ crl.globalLimiter.tokensAt x.time
  · rw [check_perIP h]
    rfl
  · rw [check_global h, Limiter.allow_false h]

theorem limiterOf_check (ip : GoStr) : (crl.checkConnectionAllowed x).2.limiterOf ip =
    if ip = x.ip ∧ (crl.checkConnectionAllowed x).1 = .allowed then ((crl.limiterOf ip).allow x.time).2
    else crl.limiterOf ip := by
  by_cases hg : 1 ≤ crl.globalLimiter.tokensAt x.time
  · have hs (l : Limiter) : ({ crl with globalLimiter := l } : ConnectionRateLimiter).limiterOf ip = crl.limiterOf ip := rfl
    rw [check_perIP hg, limiterOf_setEntry, hs]
    by_cases hip : ip = x.ip
    · subst hip
      by_cases ht : 1 ≤ (crl.limiterOf x.ip).tokensAt x.time
      · simp [ht]
      · simp [ht, Limiter.allow_false ht]
    · simp [hip]
  · have hr : (crl.checkConnectionAllowed x).1 ≠ .allowed := fun h => hg (allowed_iff.1 h).1
    rw [if_neg fun h => hr h.2, check_global hg]

end ConnectionRateLimiter

open ConnectionRateLimiter

/-! ## One IP's rejections and the other attempts -/

def withoutRejected (a : GoStr) (log : List (Attempt × Verdict)) : List (Attempt × Verdict) :=
  log.filter fun e => ¬(e.1.ip = a ∧ e.2 = .perIP)

/-- The attempts that are left are decided in the same way when they are the only ones. -/
def Isolated (crl : ConnectionRateLimiter) (a : GoStr) (xs : List Attempt) : Prop :=
  let rest := withoutRejected a (crl.checks xs)
  (crl.checks (rest.map Prod.fst)).map (fun e => decide (e.2 = .allowed)) = rest.map fun e => decide (e.2 = .allowed)

instance (crl : ConnectionRateLimiter) (a : GoStr) (xs : List Attempt) : Decidable (Isolated crl a xs) :=
  inferInstanceAs (Decidable (_ = _))

def RejectedOf (a : GoStr) (crl : ConnectionRateLimiter) (x : Attempt) : Prop :=
  x.ip = a ∧ (crl.checkConnectionAllowed x).1 = .perIP

/-- After the first attempt of `a` that its own bucket rejects, the global bucket rejects none. -/
def GlobalSuffices (crl : ConnectionRateLimiter) (a : GoStr) (xs : List Attempt) : Prop :=
  ∀ e ∈ (crl.checks xs).dropWhile fun e => ¬(e.1.ip = a ∧ e.2 = .perIP), e.2 ≠ .global

instance (crl : ConnectionRateLimiter) (a : GoStr) (xs : List Attempt) : Decidable (GlobalSuffices crl a xs) :=
  inferInstanceAs (Decidable (∀ e ∈ _, _))

/-! ## A bucket with tokens taken out and the same bucket without -/

/-- From `now` on the second bucket holds what the first one holds, or more. -/
structure Below (now : Time) (l l' : Limiter) : Prop where
  limit : l'.limit = l.limit
  burst : l'.burst = l.burst
  last : l.last ≤ now
  tokens : ∀ t, now ≤ t → l.tokensAt t ≤ l'.tokensAt t

section
variable {l l' : Limiter} {now t : Time}

/-- What the bucket holds at `u` is what it held at `t` and the refill since, cut at the burst. -/
theorem tokensAt_le (hlast : l.last ≤ t) {u : Time} (hu : t ≤ u) :
    min (l.burst : ℚ) (l.tokensAt t + ((max 0 (u - t) : Int) : ℚ) * l.limit / second) ≤ l.tokensAt u := by
  have hsum : l.refill u = l.refill t + ((max 0 (u - t) : Int) : ℚ) * l.limit / second := by
    rw [Limiter.refill, Limiter.refill, max_eq_right (sub_nonneg.2 (hlast.trans hu)), max_eq_right (sub_nonneg.2 hlast),
      max_eq_right (sub_nonneg.2 hu)]
    push_cast
    ring
  refine le_min (min_le_left _ _) ((min_le_right _ _).trans ?_)
  have := min_le_right (l.burst : ℚ) (l.tokens + l.refill t)
  rw [hsum, ← add_assoc]
  exact add_le_add_left this _

theorem tokensAt_taken (u : Time) : ({ l with tokens := l.tokensAt t - 1, last := t } : Limiter).tokensAt u =
    min (l.burst : ℚ) (l.tokensAt t - 1 + ((max 0 (u - t) : Int) : ℚ) * l.limit / second) := rfl

/-- Only the first bucket pays. -/
theorem Below.taken (h : Below now l l') (ht : now ≤ t) (hl : 1 ≤ l.tokensAt t) : Below t (l.allow t).2 l' := by
  rw [Limiter.allow_true hl]
  refine ⟨h.limit, h.burst, le_rfl, fun u hu => ?_⟩
  have hle := (tokensAt_le (h.last.trans ht) hu).trans (h.tokens u (ht.trans hu))
  rw [tokensAt_taken]
  exact (min_le_min_left _ (by linarith)).trans hle

/-- Both buckets pay. -/
theorem Below.allow (h : Below now l l') (ht : now ≤ t) (hl : 1 ≤ l.tokensAt t) : Below t (l.allow t).2 (l'.allow t).2 := by
  have hle := h.tokens t ht
  rw [Limiter.allow_true hl, Limiter.allow_true (hl.trans hle)]
  refine ⟨h.limit, h.burst, le_rfl, fun u _ => ?_⟩
  rw [tokensAt_taken, tokensAt_taken, h.limit, h.burst]
  exact min_le_min_left _ (by linarith)

end

/-! ## The two runs -/

/-- Every IP has the same bucket in both runs. -/
def Agrees (crl crl' : ConnectionRateLimiter) : Prop := ∀ ip, crl'.limiterOf ip = crl.limiterOf ip

variable {a : GoStr} {crl crl' : ConnectionRateLimiter} {x : Attempt} {xs : List Attempt} {now : Time}

theorem Agrees.rejected (h : Agrees crl crl') (hr : RejectedOf a crl x) : Agrees (crl.checkConnectionAllowed x).2 crl' := by
  intro ip
  have hv : (crl.checkConnectionAllowed x).1 ≠ .allowed := by simp [hr.2]
  rw [limiterOf_check, if_neg fun hip => hv hip.2]
  exact h ip

theorem Agrees.check (h : Agrees crl crl')
    (hs : (crl'.checkConnectionAllowed x).1 = .allowed ↔ (crl.checkConnectionAllowed x).1 = .allowed) :
    Agrees (crl.checkConnectionAllowed x).2 (crl'.checkConnectionAllowed x).2 := by
  intro ip
  simp only [limiterOf_check, hs, h ip]

theorem withoutRejected_cons_of (h : RejectedOf a crl x) :
    withoutRejected a (crl.checks (x :: xs)) = withoutRejected a ((crl.checkConnectionAllowed x).2.checks xs) := by
  simp [withoutRejected, checks, h.1, h.2]

theorem withoutRejected_cons_of_not (h : ¬RejectedOf a crl x) : withoutRejected a (crl.checks (x :: xs)) =
    (x, (crl.checkConnectionAllowed x).1) :: withoutRejected a ((crl.checkConnectionAllowed x).2.checks xs) :=
  List.filter_cons_of_pos (decide_eq_true h)

theorem global_token (h : (crl.checkConnectionAllowed x).1 ≠ .global) : 1 ≤ crl.globalLimiter.tokensAt x.time := by
  by_contra hg
  exact h (by rw [check_global hg])

/-- While the first run finds global tokens, so does the one without the rejected attempts. -/
theorem checks_isolated (h : Agrees crl crl') (hb : Below now crl.globalLimiter crl'.globalLimiter)
    (ht : (now :: xs.map Attempt.time).Pairwise (· ≤ ·)) (hg : ∀ e ∈ crl.checks xs, e.2 ≠ .global) :
    (crl'.checks ((withoutRejected a (crl.checks xs)).map Prod.fst)).map (fun e => decide (e.2 = .allowed)) =
      (withoutRejected a (crl.checks xs)).map fun e => decide (e.2 = .allowed) := by
  induction xs generalizing now crl crl' with
  | nil => rfl
  | cons x xs ih =>
    rw [List.map_cons, List.pairwise_cons] at ht
    have hle : now ≤ x.time := ht.1 _ List.mem_cons_self
    obtain ⟨hx, hrest⟩ := List.forall_mem_cons.1 hg
    have hl := global_token hx
    by_cases hr : RejectedOf a crl x
    · -- the attempt is taken out, and the second run keeps its global token
      rw [withoutRejected_cons_of hr]
      refine ih (h.rejected hr) ?_ ht.2 hrest
      rw [globalLimiter_check]
      exact hb.taken hle hl
    · have hs : (crl'.checkConnectionAllowed x).1 = .allowed ↔ (crl.checkConnectionAllowed x).1 = .allowed := by
        rw [allowed_iff, allowed_iff, h x.ip]
        exact and_congr_left' ⟨fun _ => hl, fun _ => hl.trans (hb.tokens _ hle)⟩
      rw [withoutRejected_cons_of_not hr]
      simp only [List.map_cons, checks, hs]
      refine congrArg _ (ih (h.check hs) ?_ ht.2 hrest)
      rw [globalLimiter_check, globalLimiter_check]
      exact hb.allow hle hl

theorem last_check (hlast : crl.globalLimiter.last ≤ x.time) : (crl.checkConnectionAllowed x).2.globalLimiter.last ≤ x.time := by
  rw [globalLimiter_check]
  by_cases hl : 1 ≤ crl.globalLimiter.tokensAt x.time
  · rw [Limiter.allow_true hl]
  · rw [Limiter.allow_false hl]
    exact hlast

theorem isolated_of_globalSuffices (hlast : crl.globalLimiter.last ≤ now)
    (ht : (now :: xs.map Attempt.time).Pairwise (· ≤ ·)) (hg : GlobalSuffices crl a xs) : Isolated crl a xs := by
  induction xs generalizing now crl with
  | nil => rfl
  | cons x xs ih =>
    have hcons := ht
    rw [List.map_cons, List.pairwise_cons] at ht
    have hle : now ≤ x.time := ht.1 _ List.mem_cons_self
    by_cases hr : RejectedOf a crl x
    · -- from the first rejection on the runs differ
      refine checks_isolated (fun _ => rfl) ⟨rfl, rfl, hlast, fun _ _ => le_rfl⟩ hcons ?_
      rw [GlobalSuffices, checks, List.dropWhile_cons_of_neg (by simpa [RejectedOf] using hr)] at hg
      exact hg
    · rw [GlobalSuffices, checks, List.dropWhile_cons_of_pos (by simpa [RejectedOf, imp_iff_not_or] using hr)] at hg
      have := ih (last_check (hlast.trans hle)) ht.2 hg
      rw [Isolated, withoutRejected_cons_of_not hr]
      simp only [List.map_cons, checks]
      exact congrArg _ this

/-- **One IP's flood** changes nothing for the others if the global bucket rejects no attempt after its first rejection. -/
theorem isolated_of_sufficient (config : ConnectionRateLimiterConfig) (a : GoStr) (xs : List Attempt)
    (htimes : (0 :: xs.map Attempt.time).Pairwise (· ≤ ·))
    (hglobal : GlobalSuffices (newConnectionRateLimiter config) a xs) : Isolated (newConnectionRateLimiter config) a xs :=
  isolated_of_globalSuffices le_rfl htimes hglobal

/-- The values of `server_config.go:199-202`. -/
def defaults : ConnectionRateLimiterConfig where
  ipBurst := 100
  ipRate := 100
  ipTTL := 300 * second
  globalBurst := 300
  globalRate := 50

/-- Two attempts over the burst of their IP, and another IP before, between and after them. -/
def smallFlood : List Attempt :=
  ⟨str "10.0.0.2", 0⟩ :: List.replicate 101 ⟨str "10.0.0.1", 0⟩ ++ [⟨str "10.0.0.2", 1⟩, ⟨str "10.0.0.1", 2⟩, ⟨str "10.0.0.2", 3⟩]

theorem isolated_of_sufficient_smallFlood : (withoutRejected (str "10.0.0.1")
      ((newConnectionRateLimiter defaults).checks smallFlood)).length + 2 = smallFlood.length ∧
    Isolated (newConnectionRateLimiter defaults) (str "10.0.0.1") smallFlood :=
  ⟨by decide +kernel, isolated_of_sufficient defaults _ _ (by decide +kernel) (by decide +kernel)⟩

def flood : List Attempt := List.replicate 300 ⟨str "10.0.0.1", 0⟩ ++ [⟨str "10.0.0.2", 0⟩]

/-- **Bug**: 200 attempts that their IP's own bucket refuses leave the global bucket empty for another IP. -/
theorem flood_rejects_other_ip : ¬Isolated (newConnectionRateLimiter defaults) (str "10.0.0.1") flood ∧
    ((newConnectionRateLimiter defaults).checks flood).getLast? = some (⟨str "10.0.0.2", 0⟩, .global) ∧
    ((newConnectionRateLimiter defaults).checks ((withoutRejected (str "10.0.0.1")
      ((newConnectionRateLimiter defaults).checks flood)).map Prod.fst)).getLast? = some (⟨str "10.0.0.2", 0⟩, .allowed) := by
  decide +kernel

end Sukko.ConnectionLimits
