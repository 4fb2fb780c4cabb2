import Sukko.Server.ConnectionLimits
/-
# The cleanup of idle limiters is not observable

The two runs are related by buckets that hold the same from now on (`Alike`).
-/

namespace Sukko.ConnectionLimits
open List TokenBucket ConnectionRateLimiter

def ConnectionRateLimiter.cleanup (crl : ConnectionRateLimiter) (now : Time) : ConnectionRateLimiter :=
  { crl with ipLimiters := fun ip => (crl.ipLimiters ip).filter fun entry => ¬crl.ipTTL < now - entry.lastAccess }

inductive Event
  | attempt (x : Attempt)
  | cleanup (now : Time)
deriving DecidableEq

def Event.time : Event → Time
  | .attempt x => x.time
  | .cleanup now => now

def Event.attempt? : Event → Option Attempt
  | .attempt x => some x
  | .cleanup _ => none

def attempts (es : List Event) : List Attempt := es.filterMap Event.attempt?

namespace ConnectionRateLimiter

def handle (crl : ConnectionRateLimiter) : Event → ConnectionRateLimiter
  | .attempt x => (crl.checkConnectionAllowed x).2
  | .cleanup now => crl.cleanup now

def verdicts : ConnectionRateLimiter → List Event → List Verdict
  | _, [] => []
  | crl, .attempt x :: es => (crl.checkConnectionAllowed x).1 :: verdicts (crl.handle (.attempt x)) es
  | crl, .cleanup now :: es => verdicts (crl.handle (.cleanup now)) es

end ConnectionRateLimiter

/-! ## Buckets that hold the same from now on -/

/-- Limiters that decide alike from `now` on. -/
def Alike (now : Time) (l l' : Limiter) : Prop :=
  l'.limit = l.limit ∧ l'.burst = l.burst ∧ ∀ t, now ≤ t → l'.tokensAt t = l.tokensAt t

variable {l l' : Limiter} {now t : Time} {past : List Attempt}

theorem Alike.later (h : Alike now l l') (ht : now ≤ t) : Alike t l l' := ⟨h.1, h.2.1, fun u hu => h.2.2 u (ht.trans hu)⟩

theorem Alike.allow (h : Alike now l l') (ht : now ≤ t) : Alike t (l.allow t).2 (l'.allow t).2 := by
  have heq := h.2.2 t ht
  by_cases hok : 1 ≤ l.tokensAt t
  · rw [Limiter.allow_true hok, Limiter.allow_true (heq ▸ hok)]
    refine ⟨h.1, h.2.1, fun u _ => ?_⟩
    simp [Limiter.tokensAt, Limiter.refill, h.1, h.2.1] at heq ⊢
    rw [heq]
  · rw [Limiter.allow_false hok, Limiter.allow_false (heq ▸ hok)]
    exact h.later ht

theorem refill_nonneg (hr : 0 ≤ l.limit) (t : Time) : 0 ≤ l.refill t := by
  have hm : (0 : ℚ) ≤ ((max 0 (t - l.last) : Int) : ℚ) := by exact_mod_cast le_max_left 0 (t - l.last)
  exact div_nonneg (mul_nonneg hm hr) (by norm_num [second])

theorem tokensAt_full (hr : 0 ≤ l.limit) (hf : l.tokens = l.burst) : l.tokensAt t = l.burst := by
  rw [Limiter.tokensAt, hf]
  exact min_eq_left (le_add_of_nonneg_right (refill_nonneg hr t))

theorem tokensAt_refilled (ttl : Time) (hr : 0 ≤ l.limit) (hb : (l.burst : ℚ) ≤ l.limit * ttl / second) (h0 : 0 ≤ l.tokens)
    (ht : ttl ≤ t - l.last) : l.tokensAt t = l.burst := by
  have hm : (ttl : ℚ) ≤ ((max 0 (t - l.last) : Int) : ℚ) := by exact_mod_cast ht.trans (le_max_right 0 _)
  have hle : l.limit * ttl / second ≤ l.refill t := by
    unfold Limiter.refill
    rw [mul_comm l.limit]
    exact div_le_div_of_nonneg_right (mul_le_mul_of_nonneg_right hm hr) (by norm_num [second])
  exact min_eq_left (by linarith)

/-! ## The two runs -/

/-- New and full, or last drawn from when it was accessed. -/
structure EntryOk (crl : ConnectionRateLimiter) (now : Time) (e : IpLimiterEntry) : Prop where
  limit : e.limiter.limit = crl.ipRate
  burst : e.limiter.burst = crl.ipBurst
  access : e.lastAccess ≤ now
  tokens : e.limiter.tokens = e.limiter.burst ∨ e.limiter.last ≤ e.lastAccess ∧ 0 ≤ e.limiter.tokens

/-- The limiter that is cleaned, and the one that is not. -/
structure Sim (now : Time) (crl crl' : ConnectionRateLimiter) : Prop where
  global : crl'.globalLimiter = crl.globalLimiter
  alike : ∀ ip, Alike now (crl.limiterOf ip) (crl'.limiterOf ip)
  entries : ∀ ip e, crl.ipLimiters ip = some e → EntryOk crl now e

variable {crl crl' : ConnectionRateLimiter} {x : Attempt} {e : IpLimiterEntry} {ip : GoStr}

theorem limiterOf_none (h : crl.ipLimiters ip = none) : crl.limiterOf ip = newLimiter crl.ipRate crl.ipBurst := by
  simp [limiterOf, h]

theorem cleanup_none (h : crl.ipLimiters ip = none) : (crl.cleanup t).ipLimiters ip = none := by
  simp [ConnectionRateLimiter.cleanup, h]

section
variable (h : crl.ipLimiters ip = some e)
include h

theorem limiterOf_some : crl.limiterOf ip = e.limiter := by simp [limiterOf, h]

theorem cleanup_idle (hi : crl.ipTTL < t - e.lastAccess) : (crl.cleanup t).ipLimiters ip = none := by
  have hd : (decide ¬crl.ipTTL < t - e.lastAccess) = false := decide_eq_false (not_not.2 hi)
  simp only [ConnectionRateLimiter.cleanup, h, Option.filter_some, hd]
  rfl

theorem cleanup_kept (hi : ¬crl.ipTTL < t - e.lastAccess) : (crl.cleanup t).ipLimiters ip = some e := by
  have hd : (decide ¬crl.ipTTL < t - e.lastAccess) = true := decide_eq_true hi
  simp only [ConnectionRateLimiter.cleanup, h, Option.filter_some, hd]
  rfl

end

theorem EntryOk.later (h : EntryOk crl now e) (ht : now ≤ t) : EntryOk crl t e :=
  { h with access := h.access.trans ht }

theorem entryOk_allow (h : ∀ e, crl.ipLimiters ip = some e → EntryOk crl now e) (ht : now ≤ t) :
    EntryOk crl t ⟨((crl.limiterOf ip).allow t).2, t⟩ := by
  have hold : (crl.limiterOf ip).limit = crl.ipRate ∧ (crl.limiterOf ip).burst = crl.ipBurst ∧
      ((crl.limiterOf ip).tokens = (crl.limiterOf ip).burst ∨ (crl.limiterOf ip).last ≤ t ∧ 0 ≤ (crl.limiterOf ip).tokens) := by
    cases he : crl.ipLimiters ip with
    | none =>
      rw [limiterOf_none he]
      exact ⟨rfl, rfl, Or.inl rfl⟩
    | some e =>
      have hok := h e he
      rw [limiterOf_some he]
      exact ⟨hok.limit, hok.burst, hok.tokens.imp_right fun hl => ⟨(hl.1.trans hok.access).trans ht, hl.2⟩⟩
  by_cases hok : 1 ≤ (crl.limiterOf ip).tokensAt t
  · rw [Limiter.allow_true hok]
    exact ⟨hold.1, hold.2.1, le_rfl, Or.inr ⟨le_rfl, sub_nonneg.2 hok⟩⟩
  · rw [Limiter.allow_false hok]
    exact ⟨hold.1, hold.2.1, le_rfl, hold.2.2⟩

theorem Sim.verdict_eq (h : Sim now crl crl') (hx : now ≤ x.time) :
    (crl'.checkConnectionAllowed x).1 = (crl.checkConnectionAllowed x).1 := by
  rw [ConnectionRateLimiter.verdict_eq, ConnectionRateLimiter.verdict_eq, h.global, (h.alike x.ip).2.2 x.time hx]

theorem Sim.check (h : Sim now crl crl') (hx : now ≤ x.time) :
    Sim x.time (crl.checkConnectionAllowed x).2 (crl'.checkConnectionAllowed x).2 := by
  refine ⟨?_, fun ip => ?_, fun ip e he => ?_⟩
  · rw [globalLimiter_check, globalLimiter_check, h.global]
  · rw [limiterOf_check, limiterOf_check, h.verdict_eq hx]
    split
    · exact (h.alike ip).allow hx
    · exact (h.alike ip).later hx
  · by_cases hg : 1 ≤ crl.globalLimiter.tokensAt x.time
    · rw [check_perIP hg] at he ⊢
      by_cases hip : ip = x.ip
      · subst hip
        obtain rfl : _ = e := by simpa [setEntry] using he
        obtain ⟨hl, hb, ha, ht⟩ := entryOk_allow (h.entries x.ip) hx
        exact ⟨hl, hb, ha, ht⟩
      · have hold : crl.ipLimiters ip = some e := by simpa [setEntry, hip] using he
        obtain ⟨hl, hb, ha, ht⟩ := (h.entries ip e hold).later hx
        exact ⟨hl, hb, ha, ht⟩
    · rw [check_global hg] at he ⊢
      exact (h.entries ip e he).later hx

theorem Sim.cleanup (h : Sim now crl crl') (hr : 0 ≤ crl.ipRate) (hb : (crl.ipBurst : ℚ) ≤ crl.ipRate * crl.ipTTL / second)
    (ht : now ≤ t) : Sim t (crl.cleanup t) crl' := by
  refine ⟨h.global, fun ip => ?_, fun ip e he => ?_⟩
  · have ha := (h.alike ip).later ht
    cases he : crl.ipLimiters ip with
    | none =>
      rw [limiterOf_none he] at ha
      rw [limiterOf_none (cleanup_none he)]
      exact ha
    | some e =>
      have hok := h.entries ip e he
      rw [limiterOf_some he] at ha
      by_cases hi : crl.ipTTL < t - e.lastAccess
      · rw [limiterOf_none (cleanup_idle he hi)]
        refine ⟨ha.1.trans hok.limit, ha.2.1.trans hok.burst, fun u hu => (ha.2.2 u hu).trans ?_⟩
        have hn : (newLimiter crl.ipRate crl.ipBurst).tokensAt u = crl.ipBurst := tokensAt_full hr rfl
        refine Eq.trans ?_ hn.symm
        rw [← hok.burst]
        rcases hok.tokens with hf | ⟨hl, h0⟩
        · exact tokensAt_full (hok.limit ▸ hr) hf
        · refine tokensAt_refilled crl.ipTTL (hok.limit ▸ hr) ?_ h0 ?_
          · rw [hok.limit, hok.burst]
            exact hb
          · have hi : crl.ipTTL < u - e.lastAccess := hi.trans_le (sub_le_sub_right hu _)
            exact hi.le.trans (sub_le_sub_left hl u)
      · rw [limiterOf_some (cleanup_kept he hi)]
        exact ha
  · have hold : crl.ipLimiters ip = some e := (Option.filter_eq_some_iff.1 he).1
    obtain ⟨hl, hbu, ha, hto⟩ := (h.entries ip e hold).later ht
    exact ⟨hl, hbu, ha, hto⟩

theorem config_handle (crl : ConnectionRateLimiter) (ev : Event) :
    (crl.handle ev).ipRate = crl.ipRate ∧ (crl.handle ev).ipBurst = crl.ipBurst ∧ (crl.handle ev).ipTTL = crl.ipTTL := by
  cases ev with
  | cleanup now => exact ⟨rfl, rfl, rfl⟩
  | attempt x =>
    by_cases hg : 1 ≤ crl.globalLimiter.tokensAt x.time
    · rw [handle, check_perIP hg]
      exact ⟨rfl, rfl, rfl⟩
    · rw [handle, check_global hg]
      exact ⟨rfl, rfl, rfl⟩

theorem Sim.verdicts_eq {es : List Event} (h : Sim now crl crl') (hr : 0 ≤ crl.ipRate)
    (hb : (crl.ipBurst : ℚ) ≤ crl.ipRate * crl.ipTTL / second) (hs : (now :: es.map Event.time).Pairwise (· ≤ ·)) :
    crl.verdicts es = (crl'.checks (attempts es)).map Prod.snd := by
  induction es generalizing now crl crl' with
  | nil => rfl
  | cons ev es ih =>
    rw [map_cons, pairwise_cons] at hs
    have ht : now ≤ ev.time := hs.1 _ mem_cons_self
    obtain ⟨hcr, hcb, hct⟩ := config_handle crl ev
    have hr' : 0 ≤ (crl.handle ev).ipRate := hcr ▸ hr
    have hb' : ((crl.handle ev).ipBurst : ℚ) ≤ (crl.handle ev).ipRate * (crl.handle ev).ipTTL / second := by
      rw [hcr, hcb, hct]
      exact hb
    cases ev with
    | attempt x =>
      simp only [verdicts, attempts, filterMap_cons, Event.attempt?, checks, map_cons, h.verdict_eq ht]
      exact congrArg _ (ih (h.check ht) hr' hb' hs.2)
    | cleanup t => exact ih (h.cleanup hr hb ht) hr' hb' hs.2

/-! ## Who is tracked -/

def Accessed (past : List Attempt) (crl : ConnectionRateLimiter) : Prop :=
  ∀ ip e, crl.ipLimiters ip = some e → ⟨ip, e.lastAccess⟩ ∈ past

theorem Accessed.handle (h : Accessed past crl) (ev : Event) : Accessed (past ++ ev.attempt?.toList) (crl.handle ev) := by
  intro ip e he
  cases ev with
  | cleanup now => exact mem_append_left _ (h ip e (Option.filter_eq_some_iff.1 he).1)
  | attempt x =>
    rw [ConnectionRateLimiter.handle] at he
    by_cases hg : 1 ≤ crl.globalLimiter.tokensAt x.time
    · rw [check_perIP hg] at he
      by_cases hip : ip = x.ip
      · subst hip
        obtain rfl : _ = e := by simpa [setEntry] using he
        exact mem_append_right _ mem_cons_self
      · exact mem_append_left _ (h ip e (by simpa [setEntry, hip] using he))
    · rw [check_global hg] at he
      exact mem_append_left _ (h ip e he)

theorem accessed_foldl (h : Accessed past crl) (es : List Event) :
    Accessed (past ++ attempts es) (es.foldl ConnectionRateLimiter.handle crl) ∧
      (es.foldl ConnectionRateLimiter.handle crl).ipTTL = crl.ipTTL := by
  induction es generalizing past crl with
  | nil => exact ⟨by simpa [attempts] using h, rfl⟩
  | cons ev es ih =>
    obtain ⟨hi, hc⟩ := ih (h.handle ev)
    refine ⟨?_, hc.trans (config_handle crl ev).2.2⟩
    have ha : attempts (ev :: es) = ev.attempt?.toList ++ attempts es := by
      cases ev <;> rfl
    rw [ha, ← append_assoc]
    exact hi

/-- A positive time to live whose refill is worth a burst has a positive rate. -/
theorem rate_nonneg {config : ConnectionRateLimiterConfig} (httl : 0 < config.ipTTL) (hburst : 1 ≤ config.ipBurst)
    (hrefill : (config.ipBurst : ℚ) ≤ config.ipRate * config.ipTTL / second) : 0 ≤ config.ipRate := by
  have ht : (0 : ℚ) < (config.ipTTL : ℚ) / second := div_pos (Int.cast_pos.2 httl) (by norm_num [second])
  have hb : (0 : ℚ) < config.ipBurst := Int.cast_pos.2 hburst
  rw [mul_div_assoc] at hrefill
  exact (pos_of_mul_pos_left (hb.trans_le hrefill) ht.le).le

/-- **The cleanup is not observable** when the refill of the time to live is worth a burst, for the values that
`ServerConfig.Validate` accepts (`server_config.go:746`, `:910`). After it, every tracked IP has been accessed within the time
to live. -/
theorem cleanup_unobservable (config : ConnectionRateLimiterConfig) (httl : 0 < config.ipTTL) (hburst : 1 ≤ config.ipBurst)
    (hrefill : (config.ipBurst : ℚ) ≤ config.ipRate * config.ipTTL / second) (es : List Event)
    (hsorted : (es.map Event.time).Pairwise (· ≤ ·)) :
    (newConnectionRateLimiter config).verdicts es =
        ((newConnectionRateLimiter config).checks (attempts es)).map Prod.snd ∧
      ∀ pre now post, es = pre ++ .cleanup now :: post → ∀ ip e,
        ((pre.foldl handle (newConnectionRateLimiter config)).handle (.cleanup now)).ipLimiters ip = some e →
          ∃ x ∈ attempts pre, x.ip = ip ∧ x.time = e.lastAccess ∧ x.time ≤ now ∧ now - x.time ≤ config.ipTTL := by
  have hrate : 0 ≤ config.ipRate := rate_nonneg httl hburst hrefill
  constructor
  · cases es with
    | nil => rfl
    | cons ev es =>
      have hsim : Sim ev.time (newConnectionRateLimiter config) (newConnectionRateLimiter config) :=
        ⟨rfl, fun ip => ⟨rfl, rfl, fun t _ => rfl⟩, fun ip e he => nomatch he⟩
      refine hsim.verdicts_eq hrate hrefill ?_
      rw [map_cons, pairwise_cons] at hsorted ⊢
      exact ⟨forall_mem_cons.2 ⟨le_rfl, hsorted.1⟩, pairwise_cons.2 hsorted⟩
  · rintro pre now post rfl ip e he
    have h0 : Accessed [] (newConnectionRateLimiter config) := fun ip e he => nomatch he
    obtain ⟨hacc, httl⟩ := accessed_foldl h0 pre
    obtain ⟨hold, hkept⟩ := Option.filter_eq_some_iff.1 he
    have hmem := hacc ip e hold
    rw [nil_append] at hmem
    refine ⟨_, hmem, rfl, rfl, ?_, ?_⟩
    · rw [map_append, map_cons, pairwise_append] at hsorted
      obtain ⟨ev, hev, hx⟩ := mem_filterMap.1 hmem
      have hle := hsorted.2.2 ev.time (mem_map_of_mem hev) now mem_cons_self
      cases ev with
      | cleanup t => cases hx
      | attempt x =>
        cases hx
        exact hle
    · rw [httl] at hkept
      exact not_lt.1 (of_decide_eq_true hkept)

def idleRun : List Event := [.attempt ⟨str "10.0.0.1", 0⟩, .cleanup (360 * second), .attempt ⟨str "10.0.0.1", 361 * second⟩]

theorem cleanup_unobservable_idle : (newConnectionRateLimiter defaults).verdicts idleRun = [.allowed, .allowed] ∧
    (newConnectionRateLimiter defaults).verdicts idleRun =
      ((newConnectionRateLimiter defaults).checks (attempts idleRun)).map Prod.snd :=
  ⟨by decide +kernel, (cleanup_unobservable defaults (by decide) (by decide) (by norm_num [defaults, second]) idleRun
    (by decide)).1⟩

end Sukko.ConnectionLimits
