import Mathlib.Tactic.Abel
import Sukko.Lib.Steps
/-
# What becomes of the events of the registry

The events of the writer of `Sukko.Registry`, of any type: whether a pipeline succeeds is a choice. Counted and flushed events
are kept, and so are those that the code lets go of without either.
-/

namespace Sukko.Registry.Losses
open Steps
variable {ε : Type}

/-- Where the goroutine of `Run` is. -/
inductive Phase (ε : Type)
  | waiting
  | running
  | flushing (heartbeat : Bool)
  | beating
  | draining (batch : List ε)
  | finalFlush (batch : List ε)
  | sweeping
  | stopped
deriving DecidableEq

structure State (ε : Type) where
  workChan : List ε
  /-- Events that the drain has counted and left in the channel. -/
  abandoned : ℕ
  batch : List ε
  cancelled : Bool
  phase : Phase ε
  pushed : Multiset ε
  flushed : Multiset ε
  counted : Multiset ε
  lost : Multiset ε

def initial : State ε := ⟨[], 0, [], false, .waiting, 0, 0, 0, 0⟩

structure Config where
  buffer : ℕ
  drains : Bool

inductive Act (ε : Type)
  | push (ev : ε)
  | start
  | stop
  | receive
  | flushTick
  | heartbeatTick
  | flushed (ok : Bool)
  | heartbeat (ok : Bool)
  | cancel
  | shutdown
  | drain
  | drainTimeout
  | finalFlushed (ok : Bool)
  | sweep
deriving DecidableEq

namespace State

def full (cfg : Config) (s : State ε) : Bool := cfg.buffer ≤ s.abandoned + s.workChan.length

/-- An error of `runOnce`: its local batch is gone. -/
def fail (s : State ε) : State ε :=
  { s with batch := [], lost := s.lost + s.batch, phase := if s.cancelled then .stopped else .waiting }

end State

def step (cfg : Config) (s : State ε) : Act ε → Option (State ε)
  | .push ev =>
    some (if s.full cfg then { s with pushed := s.pushed + {ev}, counted := s.counted + {ev} }
      else { s with pushed := s.pushed + {ev}, workChan := s.workChan ++ [ev] })
  | .start =>
    match s.phase, s.cancelled with
    | .waiting, false => some { s with phase := .running }
    | _, _ => none
  | .stop =>
    match s.phase, s.cancelled with
    | .waiting, true => some { s with phase := .stopped }
    | _, _ => none
  | .receive =>
    match s.phase, s.workChan with
    | .running, ev :: rest => some { s with workChan := rest, batch := s.batch ++ [ev] }
    | _, _ => none
  | .flushTick =>
    match s.phase with
    | .running => some { s with phase := if s.batch.isEmpty then .running else .flushing false }
    | _ => none
  | .heartbeatTick =>
    match s.phase with
    | .running => some { s with phase := if s.batch.isEmpty then .beating else .flushing true }
    | _ => none
  | .flushed ok =>
    match s.phase with
    | .flushing heartbeat =>
      some (if ok then
          { s with flushed := s.flushed + s.batch, batch := [], phase := if heartbeat then .beating else .running }
        else s.fail)
    | _ => none
  | .heartbeat ok =>
    match s.phase with
    | .beating => some (if ok then { s with phase := .running } else s.fail)
    | _ => none
  | .cancel => some { s with cancelled := true }
  | .shutdown =>
    match s.phase, s.cancelled with
    | .running, true =>
      some { s with batch := [], lost := s.lost + s.batch, phase := if cfg.drains then .draining [] else .sweeping }
    | _, _ => none
  | .drain =>
    match s.phase, s.workChan with
    | .draining batch, ev :: rest => some { s with workChan := rest, phase := .draining (batch ++ [ev]) }
    | _, _ => none
  | .drainTimeout =>
    match s.phase with
    | .draining batch =>
      some { s with
        workChan := []
        abandoned := s.workChan.length
        counted := s.counted + s.workChan
        phase := if batch.isEmpty then .sweeping else .finalFlush batch }
    | _ => none
  | .finalFlushed ok =>
    match s.phase with
    | .finalFlush batch =>
      some (if ok then { s with flushed := s.flushed + batch, phase := .sweeping }
        else { s with counted := s.counted + batch, phase := .sweeping })
    | _ => none
  | .sweep =>
    match s.phase with
    | .sweeping => some { s with phase := .stopped }
    | _ => none

/-! ## Conservation -/

def Phase.batch : Phase ε → List ε
  | .draining batch | .finalFlush batch => batch
  | _ => []

def Conserved (s : State ε) : Prop :=
  s.pushed = s.flushed + s.counted + s.lost + s.workChan + s.batch + s.phase.batch

variable {cfg : Config} {s t : State ε} {a : Act ε}

theorem coe_append_singleton (l : List ε) (x : ε) : ((l ++ [x] : List ε) : Multiset ε) = l + {x} :=
  (Multiset.coe_add l [x]).symm

theorem coe_cons (l : List ε) (x : ε) : ((x :: l : List ε) : Multiset ε) = {x} + l := rfl
theorem conserved_initial : Conserved (initial : State ε) := by simp [Conserved, initial, Phase.batch]

theorem Conserved.fail (h : Conserved s) (hb : s.phase.batch = []) : Conserved s.fail := by
  unfold Conserved State.fail at *
  rw [h, hb]
  cases s.cancelled <;> simp [Phase.batch] <;> abel

theorem Conserved.step (h : Conserved s) (hs : step cfg s a = some t) : Conserved t := by
  have heq : s.pushed = _ := h
  cases a with simp only [Losses.step] at hs
  | push ev =>
    cases hs
    split
    · simp only [Conserved, heq]
      abel
    · simp only [Conserved, heq, coe_append_singleton]
      abel
  | start | stop =>
    split at hs <;> cases hs
    rename_i hp hc
    simp only [Conserved, heq, hp, Phase.batch]
  | receive =>
    split at hs <;> cases hs
    rename_i ev rest hp hq
    simp only [Conserved, heq, hp, hq, coe_append_singleton, coe_cons, Phase.batch]
    abel
  | flushTick | heartbeatTick =>
    split at hs <;> cases hs
    rename_i hp
    cases s.batch.isEmpty <;> simp [Conserved, heq, hp, Phase.batch]
  | flushed ok =>
    split at hs <;> cases hs
    rename_i heartbeat hp
    cases ok with
    | false => exact h.fail (by rw [hp]; rfl)
    | true =>
      simp only [Conserved, heq, hp, Phase.batch, if_true]
      cases heartbeat <;> simp <;> abel
  | heartbeat ok =>
    split at hs <;> cases hs
    rename_i hp
    cases ok with
    | false => exact h.fail (by rw [hp]; rfl)
    | true => simp [Conserved, heq, hp, Phase.batch]
  | cancel =>
    cases hs
    exact h
  | shutdown =>
    split at hs <;> cases hs
    rename_i hp hc
    cases cfg.drains <;> simp [Conserved, heq, hp, Phase.batch] <;> abel
  | drain =>
    split at hs <;> cases hs
    rename_i batch ev rest hp hq
    simp only [Conserved, heq, hp, hq, coe_append_singleton, coe_cons, Phase.batch]
    abel
  | drainTimeout =>
    split at hs <;> cases hs
    rename_i batch hp
    cases batch <;> simp [Conserved, heq, hp, Phase.batch] <;> abel
  | finalFlushed ok =>
    split at hs <;> cases hs
    rename_i batch hp
    cases ok <;> simp [Conserved, heq, hp, Phase.batch] <;> abel
  | sweep =>
    split at hs <;> cases hs
    rename_i hp
    simp only [Conserved, heq, hp, Phase.batch]

/-! ## Runs without silent losses -/

def Phase.past : Phase ε → Bool
  | .finalFlush _ | .sweeping | .stopped => true
  | _ => false

def Phase.collects : Phase ε → Bool
  | .running | .flushing _ => true
  | _ => false

/-- The step is none of those that let go of events without counting them. -/
def Heard (cfg : Config) (s : State ε) : Act ε → Prop
  | .push _ => s.phase.past = true → s.full cfg = true
  | .stop => s.workChan = []
  | .flushed ok => ok = true
  | .heartbeat ok => ok = false → s.cancelled = true → s.workChan = []
  | .shutdown => s.batch = [] ∧ (cfg.drains = true ∨ s.workChan = [])
  | _ => True

instance [DecidableEq ε] (cfg : Config) (s : State ε) (a : Act ε) : Decidable (Heard cfg s a) := by
  cases a <;> unfold Heard <;> infer_instance

structure Kept (s : State ε) : Prop where
  lost : s.lost = 0
  batch : s.phase.collects = false → s.batch = []
  queue : s.phase.past = true → s.workChan = []

theorem Kept.step (h : Kept s) (ha : Heard cfg s a) (hs : step cfg s a = some t) : Kept t := by
  cases a with simp only [Losses.step] at hs
  | push ev =>
    cases hs
    split
    · exact ⟨h.lost, h.batch, h.queue⟩
    · rename_i hf
      exact ⟨h.lost, h.batch, fun hp => absurd (ha hp) hf⟩
  | start =>
    split at hs <;> cases hs
    exact ⟨h.lost, nofun, nofun⟩
  | stop =>
    split at hs <;> cases hs
    rename_i hp hc
    exact ⟨h.lost, fun _ => h.batch (by rw [hp]; rfl), fun _ => ha⟩
  | receive =>
    split at hs <;> cases hs
    rename_i hp hq
    exact ⟨h.lost, by simp [hp, Phase.collects], by simp [hp, Phase.past]⟩
  | flushTick =>
    split at hs <;> cases hs
    refine ⟨h.lost, ?_, ?_⟩ <;> split <;> exact nofun
  | heartbeatTick =>
    split at hs <;> cases hs
    refine ⟨h.lost, ?_, ?_⟩ <;> split
    · rename_i hb
      exact fun _ => List.isEmpty_iff.1 hb
    all_goals exact nofun
  | flushed ok =>
    split at hs <;> cases hs
    rename_i heartbeat hp
    obtain rfl : ok = true := ha
    exact ⟨h.lost, fun _ => rfl, by cases heartbeat <;> exact nofun⟩
  | heartbeat ok =>
    split at hs <;> cases hs
    rename_i hp
    have hb : s.batch = [] := h.batch (by rw [hp]; rfl)
    cases ok with
    | true => exact ⟨h.lost, nofun, nofun⟩
    | false =>
      refine ⟨by simp [State.fail, hb, h.lost], fun _ => rfl, fun hpast => ?_⟩
      cases hc : s.cancelled with
      | true => exact ha rfl hc
      | false => simp [State.fail, hc, Phase.past] at hpast
  | cancel =>
    cases hs
    exact ⟨h.lost, h.batch, h.queue⟩
  | shutdown =>
    split at hs <;> cases hs
    refine ⟨by simp [h.lost, ha.1], fun _ => rfl, fun hpast => ?_⟩
    rcases ha.2 with hd | hq
    · simp [hd, Phase.past] at hpast
    · exact hq
  | drain =>
    split at hs <;> cases hs
    rename_i hp hq
    exact ⟨h.lost, fun _ => h.batch (by rw [hp]; rfl), nofun⟩
  | drainTimeout =>
    split at hs <;> cases hs
    rename_i hp
    exact ⟨h.lost, fun _ => h.batch (by rw [hp]; rfl), fun _ => rfl⟩
  | finalFlushed ok =>
    split at hs <;> cases hs
    rename_i hp
    have hb : s.batch = [] := h.batch (by rw [hp]; rfl)
    have hq : s.workChan = [] := h.queue (by rw [hp]; rfl)
    split <;> exact ⟨h.lost, fun _ => hb, fun _ => hq⟩
  | sweep =>
    split at hs <;> cases hs
    rename_i hp
    exact ⟨h.lost, fun _ => h.batch (by rw [hp]; rfl), fun _ => h.queue (by rw [hp]; rfl)⟩

/-- **Where the events go.** In every run, each event is in one place. A run in which no step lets go of events and that ends
with the writer stopped leaves each flushed or counted, once. -/
theorem events_flushed_or_counted (cfg : Config) (acts : List (Act ε)) (s : State ε)
    (hrun : run (step cfg) initial acts = some s) :
    s.pushed = s.flushed + s.counted + s.lost + s.workChan + s.batch + s.phase.batch ∧
    (Along (step cfg) (Heard cfg) initial acts → s.phase = .stopped → s.pushed = s.flushed + s.counted) := by
  have hcons : Conserved s := run_invariant Conserved (fun _ _ _ h hs => h.step hs) conserved_initial hrun
  refine ⟨hcons, fun hheard hp => ?_⟩
  have hkept : Kept s :=
    run_invariant_along Kept (fun _ _ _ h ha hs => h.step ha hs) ⟨rfl, fun _ => rfl, fun _ => rfl⟩ hheard hrun
  have hb : s.batch = [] := hkept.batch (by rw [hp]; rfl)
  have hq : s.workChan = [] := hkept.queue (by rw [hp]; rfl)
  have heq : s.pushed = _ := hcons
  simpa [hkept.lost, hb, hq, hp, Phase.batch] using heq

def heardRun : List (Act ℕ) :=
  [.push 1, .start, .receive, .flushTick, .flushed true, .push 2, .push 3, .push 4, .cancel, .shutdown, .drain, .drainTimeout,
    .finalFlushed true, .sweep]

theorem events_flushed_or_counted_drain : ∃ s, run (step ⟨2, true⟩) initial heardRun = some s ∧ s.phase = .stopped ∧
    s.pushed = s.flushed + s.counted ∧ s.flushed = {1, 2} ∧ s.counted = {4, 3} :=
  ⟨_, rfl, rfl, (events_flushed_or_counted ⟨2, true⟩ heardRun _ rfl).2 (by decide +kernel) rfl, by decide +kernel, by decide +kernel⟩

/-- **Bug**: a flush fails, and the event of its batch is neither written nor counted. -/
theorem failed_flush_loses_event : ∃ s, run (step ⟨2, true⟩) initial
      [.start, .push 1, .receive, .flushTick, .flushed false, .start, .cancel, .shutdown, .drainTimeout, .sweep] = some s ∧
    s.phase = .stopped ∧ s.pushed = {1} ∧ s.flushed = 0 ∧ s.counted = 0 :=
  ⟨_, rfl, rfl, rfl, rfl, rfl⟩

end Sukko.Registry.Losses
