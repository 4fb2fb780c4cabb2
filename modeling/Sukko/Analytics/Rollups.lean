import Sukko.Lib.Steps
/-
# Rollups of the analytics tables

`RollupManager` (`shared/analytics/rollup.go`) sums minute rows into hour rows and these into day rows, on the two
tickers of `AnalyticsManager.Start`. `PromoteHour` and `PromoteDay` (`:30`, `:57`) take an advisory lock with one statement of the
pool and promote three tables with three others.
-/

namespace Sukko.Analytics.Rollups
open Steps

inductive Table
  | connections | messages | push
  deriving DecidableEq

inductive Bucket
  | hour | day
  deriving DecidableEq

def tables : List Table := [.connections, .messages, .push]

variable {P : Type} [DecidableEq P]

/-- `rollupHourLockID` and `rollupDayLockID` (`constants.go:8`). -/
def Bucket.lockID : Bucket → ℕ
  | .hour => 1001
  | .day => 1002

/-- `pg_try_advisory_xact_lock`, with the locks of the open transactions before and after. -/
def tryAdvisoryXactLock (id : ℕ) (held : List ℕ) : Bool × List ℕ :=
  if id ∈ held then (false, held) else (true, id :: held)

/-- A statement of the pool is a transaction of its own, whose locks are released at its end. -/
def poolStatement (f : List ℕ → Bool × List ℕ) (held : List ℕ) : Bool × List ℕ :=
  ((f held).1, held)

/-- `calls` has the statements that are left of each call that got the lock. -/
structure State (P : Type) where
  held : List ℕ
  calls : P → Bucket → Option (List Table)

inductive Act (P : Type)
  | lock (p : P) (k : Bucket) (fails : Bool)
  | exec (p : P) (k : Bucket) (fails : Bool)

def State.setCall (s : State P) (p : P) (k : Bucket) (c : Option (List Table)) : State P :=
  { s with calls := Function.update s.calls p (Function.update (s.calls p) k c) }

/-- One pool statement of `PromoteHour` or `PromoteDay` of a pod. -/
def step (s : State P) : Act P → Option (State P)
  | .lock p k fails =>
    if (s.calls p k).isSome then none
    else if fails then some s
    else
      let locked := poolStatement (tryAdvisoryXactLock k.lockID) s.held
      let s := { s with held := locked.2 }
      if locked.1 then some (s.setCall p k (some tables)) else some s
  | .exec p k fails =>
    match s.calls p k with
    | some (_ :: ts) =>
      if fails then some (s.setCall p k none)
      else some (s.setCall p k (if ts = [] then none else some ts))
    | _ => none

def init : State P := ⟨[], fun _ _ => none⟩

def Exclusive (s : State P) : Prop :=
  ∀ p q k, (s.calls p k).isSome → (s.calls q k).isSome → p = q

theorem step_held {s s' : State P} {a : Act P} (hs : step s a = some s') : s'.held = s.held := by
  cases a with simp only [step] at hs
  | lock p k fails =>
    split_ifs at hs <;> cases hs <;> rfl
  | exec p k fails =>
    split at hs
    · split_ifs at hs <;> cases hs <;> rfl
    · cases hs

/-- **The rollup lock.** In no run does a pod that asks for the lock fail to get it, so promotions exclude each other exactly
when there is no second pod. -/
theorem promotions_exclusive_iff :
    (∀ as (s : State P), run step init as = some s →
      ∀ k : Bucket, (poolStatement (tryAdvisoryXactLock k.lockID) s.held).1 = true) ∧
    ((∀ as (s : State P), run step init as = some s → Exclusive s) ↔ Subsingleton P) := by
  refine ⟨fun as s hr k => ?_, fun hx => ⟨fun p q => ?_⟩, fun hp as s _ p q _ _ _ => hp.allEq p q⟩
  · have hh : s.held = [] := by
      refine run_invariant (fun s => s.held = []) ?_ rfl hr
      intro s a s' hi hs
      rw [step_held hs, hi]
    simp [poolStatement, tryAdvisoryXactLock, hh]
  · by_contra hne
    have hr : ∃ s : State P, run step init [.lock p .hour false, .lock q .hour false] = some s ∧
        (s.calls p .hour).isSome ∧ (s.calls q .hour).isSome := by
      simp [run, step, init, poolStatement, tryAdvisoryXactLock, State.setCall, hne, Ne.symm hne]
    obtain ⟨s, hr, hp, hq⟩ := hr
    exact hne (hx _ s hr p q .hour hp hq)

/-- **Bug**: two pods promote the same hour at the same time, since the lock is released with the statement that took it. -/
theorem two_pods_promote :
    (run step init [.lock true .hour false, .lock false .hour false]).map
      (fun s => (s.calls true .hour, s.calls false .hour)) = some (some tables, some tables) :=
  rfl

/-! ## Hour and day rows of one of the tables, with instants in nanoseconds of UTC -/

open List Function

def oneHour : ℕ := 3600000000000

/-- A minute row; `group` is the tenant together with the transport, the channel prefix or the provider. -/
structure Row (γ κ : Type) where
  bucketStart : ℕ
  group : γ
  counts : κ → Int

/-- The hour and day rows, found by the number of their hour or day. -/
structure Rollup (γ κ : Type) where
  hourly : ℕ → γ → Option (κ → Int)
  daily : ℕ → γ → Option (κ → Int)

variable {γ κ : Type}

/-- One group of a `SELECT` with sums: it has a row when it is not empty. -/
def sumRows (rows : List (κ → Int)) : Option (κ → Int) :=
  if rows.isEmpty then none else some fun c => rows.foldr (· c + ·) 0

/-- `ON CONFLICT … DO UPDATE`: a group of the statement replaces the row with its key. -/
def upsert (rows : ℕ → γ → Option (κ → Int)) (n : ℕ) (sums : γ → Option (κ → Int)) : ℕ → γ → Option (κ → Int) :=
  update rows n fun g => (sums g).or (rows n g)

section
variable {rows : ℕ → γ → Option (κ → Int)} {n m : ℕ} {sums : γ → Option (κ → Int)} {g : γ}

theorem upsert_of_ne (h : m ≠ n) : upsert rows n sums m = rows m := update_of_ne h ..

theorem upsert_self (h : rows n g = none) : upsert rows n sums n g = sums g := by simp [upsert, h]

end

def sumHours (hourly : ℕ → γ → Option (κ → Int)) (d : ℕ) (g : γ) : Option (κ → Int) :=
  sumRows ((range 24).filterMap fun i => hourly (24 * d + i) g)

theorem sumHours_eq_none_iff {hourly : ℕ → γ → Option (κ → Int)} {d : ℕ} {g : γ} :
    sumHours hourly d g = none ↔ ∀ i < 24, hourly (24 * d + i) g = none := by
  simp [sumHours, sumRows, filterMap_eq_nil_iff]

variable [DecidableEq γ]

def sumHour (minute : List (Row γ κ)) (h : ℕ) (g : γ) : Option (κ → Int) :=
  sumRows ((minute.filter fun r => r.bucketStart / oneHour = h ∧ r.group = g).map Row.counts)

theorem sumHour_single_eq_none_iff {n h : ℕ} {g : γ} {counts : κ → Int} :
    sumHour [⟨n * oneHour, g, counts⟩] h g = none ↔ h ≠ n := by
  have hn : n * oneHour / oneHour = n := Nat.mul_div_cancel _ (by decide)
  rw [ne_comm]
  simp [sumHour, sumRows, hn]

/-- `PromoteHour` (`rollup.go:30`) of the last complete hour. -/
def Rollup.promoteHour (r : Rollup γ κ) (minute : List (Row γ κ)) (now : ℕ) : Rollup γ κ :=
  let hour := now / oneHour - 1
  { r with hourly := upsert r.hourly hour (sumHour minute hour) }

/-- `PromoteDay` (`rollup.go:57`) of the last complete day. -/
def Rollup.promoteDay (r : Rollup γ κ) (now : ℕ) : Rollup γ κ :=
  let day := now / (24 * oneHour) - 1
  { r with daily := upsert r.daily day (sumHours r.hourly day) }

variable (start : ℕ) (minute : ℕ → List (Row γ κ)) (dayFirst : ℕ → Bool)

/-- The `n`-th tick of the hour ticker, when the minute table holds `minute n`; every 24th is at the instant of a tick of the day
ticker, and `dayFirst` says which of the two executes first. -/
def tick (n : ℕ) (r : Rollup γ κ) : Rollup γ κ :=
  let now := start + n * oneHour
  if n % 24 = 0 then
    if dayFirst n then (r.promoteDay now).promoteHour (minute n) now else (r.promoteHour (minute n) now).promoteDay now
  else r.promoteHour (minute n) now

/-- `AnalyticsManager.Start` (`provisioning/analytics_manager.go:58`) up to the `n`-th tick. -/
def ticks (r : Rollup γ κ) : ℕ → Rollup γ κ
  | 0 => r
  | n + 1 => tick start minute dayFirst (n + 1) (ticks r n)

variable {start minute dayFirst} {r : Rollup γ κ} {final : List (Row γ κ)} {g : γ}

theorem sub_hour (n : ℕ) : (start + n * oneHour) / oneHour = start / oneHour + n :=
  Nat.add_mul_div_right start n (by decide)

theorem tick_hourly (n : ℕ) : (tick start minute dayFirst n r).hourly =
    upsert r.hourly (start / oneHour + n - 1) (sumHour (minute n) (start / oneHour + n - 1)) := by
  rw [← sub_hour]
  unfold tick
  split
  · split <;> rfl
  · rfl

/-- The day rows sum the hour rows before the tick when the day ticker goes first. -/
theorem tick_daily (n : ℕ) : (tick start minute dayFirst n r).daily =
    if n % 24 = 0 then
      upsert r.daily ((start / oneHour + n) / 24 - 1)
        (sumHours (if dayFirst n then r else tick start minute dayFirst n r).hourly ((start / oneHour + n) / 24 - 1))
    else r.daily := by
  have hd : (start + n * oneHour) / (24 * oneHour) = (start / oneHour + n) / 24 := by
    rw [Nat.mul_comm 24, ← Nat.div_div_eq_div_mul, sub_hour]
  by_cases hn : n % 24 = 0
  · by_cases hf : dayFirst n <;> simp [tick, hn, hf, Rollup.promoteHour, Rollup.promoteDay, hd]
  · simp [tick, hn, Rollup.promoteHour]

section
variable (h0 : ∀ h g, start / oneHour ≤ h → r.hourly h g = none)
  (hw : ∀ n g, sumHour (minute (n + 1)) (start / oneHour + n) g = sumHour final (start / oneHour + n) g)
include h0 hw

/-- After `n` ticks exactly the hours from the start on that are over have their rows. -/
theorem ticks_hourly (n : ℕ) {h : ℕ} (hh : start / oneHour ≤ h) :
    (ticks start minute dayFirst r n).hourly h g = if h < start / oneHour + n then sumHour final h g else none := by
  induction n with
  | zero => simp [ticks, h0 h g hh, Nat.not_lt.2 hh]
  | succ n ih =>
    rw [ticks, tick_hourly]
    generalize start / oneHour = first at *
    by_cases hn : h = first + n
    · subst hn
      rw [if_neg (by omega)] at ih
      rw [← Nat.add_assoc, Nat.add_sub_cancel, upsert_self ih, hw, if_pos (by omega)]
    · rw [upsert_of_ne (by omega), ih]
      exact if_congr (by omega) rfl rfl

/-- The first day tick after the end of the day writes its rows, from the hour rows there are then. -/
theorem ticks_daily {d : ℕ} (h1 : ∀ g, r.daily d g = none) (hlt : start / oneHour < 24 * d) {m : ℕ}
    (hm : m = 24 * (d + 1 - start / oneHour / 24)) (n : ℕ) : (ticks start minute dayFirst r n).daily d g =
      if m ≤ n then sumHours (fun h g => if h < start / oneHour + m - (dayFirst m).toNat then sumHour final h g else none) d g
      else none := by
  induction n with
  | zero => rw [if_neg (by omega), ticks, h1 g]
  | succ n ih =>
    have hhour : ∀ n h, start / oneHour ≤ h → (ticks start minute dayFirst r n).hourly h g = _ :=
      fun n h hh => ticks_hourly h0 hw n hh
    have hdaily := @tick_daily γ κ _ start minute dayFirst (ticks start minute dayFirst r n) (n + 1)
    rw [ticks, hdaily]
    generalize start / oneHour = first at *
    by_cases he : n + 1 = m
    · have hdm : (first + (n + 1)) / 24 - 1 = d := by omega
      rw [if_neg (by omega)] at ih
      rw [if_pos (by omega), hdm, upsert_self ih, if_pos he.ge]
      refine congrArg sumRows (filterMap_congr fun i hi => ?_)
      have hi := mem_range.1 hi
      cases hf : dayFirst m with
      | true =>
        rw [he, hf, if_pos rfl, hhour n _ (by omega)]
        exact if_congr (by simp only [Bool.toNat_true]; omega) rfl rfl
      | false =>
        rw [he, hf, if_neg (by decide), ← he, ← ticks, hhour (n + 1) _ (by omega)]
        exact if_congr (by simp only [Bool.toNat_false]; omega) rfl rfl
    · -- a tick that does not sum this day leaves its rows
      have hle : m ≤ n + 1 ↔ m ≤ n := by omega
      rw [if_congr hle rfl rfl, ← ih]
      split
      · rw [upsert_of_ne (by omega)]
      · rfl

end

/-- **Daily rollups.** From the first tick of the day ticker after the end of a day on, its rows are the sums of its 24 hours of
minute rows, whatever the tables hold, just if the start is not in the first hour of a day or the hour ticker goes first at that
instant. At each tick the minute table has all rows of the hour just ended; older ones may be gone. -/
theorem daily_complete_iff {d : ℕ} (hd : start < d * (24 * oneHour)) (g : γ) :
    (∀ (r : Rollup γ κ) (minute : ℕ → List (Row γ κ)) (final : List (Row γ κ)),
      (∀ h g, start / oneHour ≤ h → r.hourly h g = none) → (∀ g, r.daily d g = none) →
      (∀ n g, sumHour (minute (n + 1)) (start / oneHour + n) g = sumHour final (start / oneHour + n) g) →
      ∀ n, 24 * (d + 1 - start / (24 * oneHour)) ≤ n →
        (ticks start minute dayFirst r n).daily d g = sumHours (sumHour final) d g) ↔
      (start / oneHour % 24 ≠ 0 ∨ dayFirst (24 * (d + 1 - start / (24 * oneHour))) = false) := by
  have hday : start / (24 * oneHour) = start / oneHour / 24 := by rw [Nat.mul_comm, Nat.div_div_eq_div_mul]
  have hlt : start / oneHour < 24 * d := by
    rw [Nat.div_lt_iff_lt_mul (by decide)]
    rwa [← Nat.mul_assoc, Nat.mul_comm d] at hd
  rw [hday]
  constructor
  · intro h
    by_contra hc
    rw [not_or, not_not, Bool.not_eq_false] at hc
    -- the only row is in the last hour of the day
    let final : List (Row γ κ) := [⟨(24 * d + 23) * oneHour, g, fun _ => 0⟩]
    have hn := h ⟨fun _ _ => none, fun _ _ => none⟩ (fun _ => final) final (fun _ _ _ => rfl) (fun _ => rfl) (fun _ _ => rfl) _
      le_rfl
    rw [ticks_daily (fun _ _ _ => rfl) (fun _ _ => rfl) (fun _ => rfl) hlt rfl, if_pos le_rfl, hc.2, Bool.toNat_true] at hn
    generalize start / oneHour = first at *
    have hnone : sumHours (sumHour final) d g = none := by
      rw [← hn, sumHours_eq_none_iff]
      intro i hi
      split
      · rw [sumHour_single_eq_none_iff]
        omega
      · rfl
    exact sumHour_single_eq_none_iff.1 (sumHours_eq_none_iff.1 hnone 23 (by decide)) rfl
  · intro hk r minute final h0 h1 hw n hn
    rw [ticks_daily h0 hw h1 hlt rfl, if_pos hn]
    generalize start / oneHour = first at *
    refine congrArg sumRows (filterMap_congr fun i hi => if_pos ?_)
    have hi := mem_range.1 hi
    rcases hk with hz | hf
    · have := (dayFirst (24 * (d + 1 - first / 24))).toNat_le
      omega
    · rw [hf, Bool.toNat_false]
      omega

/-- One row at 23:00 of day 1. -/
def lastHour : List (Row Unit Unit) := [⟨47 * oneHour, (), fun _ => 5⟩]

def noRows : Rollup Unit Unit := ⟨fun _ _ => none, fun _ _ => none⟩

/-- The row is gone from the minute table after the tick at its end. -/
theorem daily_complete_iff_from_one :
    (ticks oneHour (fun n => if n = 47 then lastHour else []) (fun _ => true) noRows 50).daily 1 () =
      sumHours (sumHour lastHour) 1 () := by
  refine (daily_complete_iff (by decide) ()).2 (.inl (by decide)) _ _ _ (fun _ _ _ => rfl) (fun _ => rfl) (fun n _ => ?_) _
    (by decide)
  have hh : 47 * oneHour / oneHour = 47 := by decide
  have h1 : oneHour / oneHour = 1 := by decide
  by_cases he : n = 46
  · subst he
    rfl
  · have hne : 47 ≠ 1 + n := by omega
    simp [sumHour, lastHour, hh, h1, he, hne]

/-- **Bug**: with a start at 00:30 and the day tick first, a day is summed before its last hour is promoted, and not again. -/
theorem last_hour_missing :
    (∀ n ∈ [48, 72], ((ticks (oneHour / 2) (fun _ => lastHour) (fun _ => true) noRows n).daily 1 ()).isNone) ∧
      (sumHours (sumHour lastHour) 1 ()).map (· ()) = some 5 := by
  decide +kernel

end Sukko.Analytics.Rollups
