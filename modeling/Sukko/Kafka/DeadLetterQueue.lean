import Mathlib.Tactic.Abel
import Sukko.Lib.Steps
/-
# What becomes of a dead letter

Each wait of `Close` may end at its timeout, so nothing is required to pass it. A worker may receive any copy until `Shutdown`
has returned. `client.Close` makes every produce that is not over fail.
-/

namespace Sukko.Kafka.DeadLetterQueue
open Steps Function
variable {α : Type} {n m : ℕ}

/-- Where a worker of the dead-letter pool is. -/
inductive Worker (α : Type)
  | idle
  | writing (job : α) (attempt : ℕ)
  | backoff (job : α) (attempt : ℕ)
  | abandoning
  | exited
deriving DecidableEq

inductive FanWorker (α : Type)
  | idle
  | writing (job : α)
  | exited
deriving DecidableEq

/-- How far `Close` is. -/
inductive Phase
  | opened
  | draining
  | cancelled
  | clientClosed
  | returned
deriving DecidableEq

def Phase.isCancelled : Phase → Bool
  | .opened | .draining => false
  | _ => true

def Phase.clientOpen : Phase → Bool
  | .clientClosed | .returned => false
  | _ => true

structure State (α : Type) (n m : ℕ) where
  queue : List α
  dlq : Fin n → Worker α
  fan : Fin m → FanWorker α
  phase : Phase
  accepted : Multiset α
  written : Multiset α
  counted : Multiset α

def initial : State α n m := ⟨[], fun _ => .idle, fun _ => .idle, .opened, 0, 0, 0⟩
def dlqQueueDepthPerWorker : ℕ := 16

namespace State

def room (s : State α n m) : Bool := s.queue.length < n * dlqQueueDepthPerWorker

def trySubmit (s : State α n m) (job : α) : State α n m :=
  if s.room then { s with queue := s.queue ++ [job], accepted := s.accepted + {job} } else s

def setDlq (s : State α n m) (d : Fin n) (w : Worker α) : State α n m := { s with dlq := update s.dlq d w }
def setFan (s : State α n m) (f : Fin m) (w : FanWorker α) : State α n m := { s with fan := update s.fan f w }

end State

inductive Act (α : Type) (n m : ℕ)
  | submit (job : α)
  | fanReceive (f : Fin m) (job : α)
  | fanProduced (f : Fin m) (ok : Bool)
  | fanExit (f : Fin m)
  | receive (d : Fin n)
  | produced (d : Fin n) (ok : Bool)
  | retry (d : Fin n)
  | abort (d : Fin n)
  | abandon (d : Fin n)
  | drain (d : Fin n)
  | shutdown
  | cancel
  | closeClient
  | returned
deriving DecidableEq

def step (maxRetries : ℕ) (s : State α n m) : Act α n m → Option (State α n m)
  | .submit job => some (s.trySubmit job)
  | .fanReceive f job =>
    match s.fan f, s.phase.isCancelled with
    | .idle, false => some (s.setFan f (.writing job))
    | _, _ => none
  | .fanProduced f ok =>
    match s.fan f with
    | .writing job =>
      if ok then (if s.phase.clientOpen then some (s.setFan f .idle) else none)
      else some ((s.setFan f .idle).trySubmit job)
    | _ => none
  | .fanExit f =>
    match s.fan f, s.phase with
    | .idle, .opened => none
    | .idle, _ => some (s.setFan f .exited)
    | _, _ => none
  | .receive d =>
    match s.dlq d, s.queue with
    | .idle, job :: rest => some { s.setDlq d (.writing job 0) with queue := rest }
    | _, _ => none
  | .produced d ok =>
    match s.dlq d with
    | .writing job attempt =>
      if ok then (if s.phase.clientOpen then some { s.setDlq d .idle with written := s.written + {job} } else none)
      else if attempt = maxRetries then some { s.setDlq d .idle with counted := s.counted + {job} }
      else some (s.setDlq d (.backoff job attempt))
    | _ => none
  | .retry d =>
    match s.dlq d with
    | .backoff job attempt => some (s.setDlq d (.writing job (attempt + 1)))
    | _ => none
  | .abort d =>
    match s.dlq d, s.phase.isCancelled with
    | .backoff job _, true => some { s.setDlq d .idle with counted := s.counted + {job} }
    | _, _ => none
  | .abandon d =>
    match s.dlq d, s.phase.isCancelled with
    | .idle, true => some (s.setDlq d .abandoning)
    | _, _ => none
  | .drain d =>
    match s.dlq d, s.queue with
    | .abandoning, [] => some (s.setDlq d .exited)
    | .abandoning, job :: rest => some { s with queue := rest, counted := s.counted + {job} }
    | _, _ => none
  | .shutdown => if s.phase = .opened then some { s with phase := .draining } else none
  | .cancel => if s.phase = .draining then some { s with phase := .cancelled } else none
  | .closeClient => if s.phase = .cancelled then some { s with phase := .clientClosed } else none
  | .returned => if s.phase = .clientClosed then some { s with phase := .returned } else none

/-! ## Conservation -/

def Worker.jobs : Worker α → Multiset α
  | .writing job _ | .backoff job _ => {job}
  | _ => 0

def inHand (dlq : Fin n → Worker α) : Multiset α := ∑ d, (dlq d).jobs

/-- Every accepted job is in one place. -/
def Conserved (s : State α n m) : Prop := s.accepted = s.written + s.counted + s.queue + inHand s.dlq

variable {maxRetries : ℕ} {s t : State α n m} {a : Act α n m} {d : Fin n}

theorem inHand_update (dlq : Fin n → Worker α) (d : Fin n) (w : Worker α) :
    inHand (update dlq d w) + (dlq d).jobs = inHand dlq + w.jobs := by
  have hrest : ∑ i ∈ Finset.univ.erase d, (update dlq d w i).jobs = ∑ i ∈ Finset.univ.erase d, (dlq i).jobs :=
    Finset.sum_congr rfl fun i hi => by rw [update_of_ne (Finset.ne_of_mem_erase hi)]
  rw [inHand, inHand, ← Finset.add_sum_erase _ _ (Finset.mem_univ d), ← Finset.add_sum_erase _ (fun i => (dlq i).jobs)
    (Finset.mem_univ d), hrest, update_self]
  abel

theorem Conserved.move {w w' : Worker α} (h : Conserved s) (hw : s.dlq d = w) (ht : t.dlq = update s.dlq d w')
    (hm : t.accepted + (s.written + s.counted + s.queue + w.jobs) = s.accepted + (t.written + t.counted + t.queue + w'.jobs)) :
    Conserved t := by
  have hset := inHand_update s.dlq d w'
  have heq : s.accepted = _ := h
  rw [heq] at hm
  rw [hw] at hset
  refine add_right_cancel (b := s.written + s.counted + s.queue + w.jobs) ?_
  rw [hm, ht]
  calc s.written + s.counted + s.queue + inHand s.dlq + (t.written + t.counted + t.queue + w'.jobs)
      = s.written + s.counted + s.queue + (t.written + t.counted + t.queue) + (inHand s.dlq + w'.jobs) := by abel
    _ = s.written + s.counted + s.queue + (t.written + t.counted + t.queue) + (inHand (update s.dlq d w') + w.jobs) := by rw [hset]
    _ = _ := by abel

theorem Conserved.trySubmit (h : Conserved s) (job : α) : Conserved (s.trySubmit job) := by
  have heq : s.accepted = _ := h
  unfold State.trySubmit
  split
  · simp only [Conserved, heq, ← Multiset.coe_add, Multiset.coe_singleton]
    abel
  · exact h

theorem Conserved.step (h : Conserved s) (hs : step maxRetries s a = some t) : Conserved t := by
  cases a with simp only [DeadLetterQueue.step] at hs
  | submit job =>
    cases hs
    exact h.trySubmit job
  | fanReceive f job | fanExit f | shutdown | cancel | closeClient | returned =>
    split at hs <;> cases hs
    exact h
  | fanProduced f ok =>
    split at hs
    · rename_i job _
      have hidle : Conserved (s.setFan f .idle) := h
      split at hs
      · split at hs <;> cases hs
        exact hidle
      · cases hs
        exact hidle.trySubmit job
    · cases hs
  | receive d =>
    split at hs <;> cases hs
    rename_i job rest hw hq
    refine h.move hw rfl ?_
    simp only [State.setDlq, hq, Worker.jobs, ← Multiset.cons_coe, ← Multiset.singleton_add]
    abel
  | produced d ok =>
    split at hs
    · rename_i job attempt hw
      split at hs
      · split at hs <;> cases hs
        refine h.move hw rfl ?_
        simp only [State.setDlq, Worker.jobs]
        abel
      · split at hs <;> cases hs
        · refine h.move hw rfl ?_
          simp only [State.setDlq, Worker.jobs]
          abel
        · exact h.move hw rfl rfl
    · cases hs
  | retry d =>
    split at hs <;> cases hs
    rename_i hw
    exact h.move hw rfl rfl
  | abort d =>
    split at hs <;> cases hs
    rename_i hw _
    refine h.move hw rfl ?_
    simp only [State.setDlq, Worker.jobs]
    abel
  | abandon d =>
    split at hs <;> cases hs
    rename_i hw _
    exact h.move hw rfl rfl
  | drain d =>
    split at hs <;> cases hs
    · rename_i hw _
      exact h.move hw rfl rfl
    · rename_i job rest hw hq
      have heq : s.accepted = _ := h
      simp only [Conserved, heq, hq, ← Multiset.cons_coe, ← Multiset.singleton_add]
      abel

/-! ## Runs in which a worker is there -/

/-- A job is accepted only while a worker of the pool has not exited. -/
def Served (s : State α n m) : Act α n m → Prop
  | .submit _ => s.room = true → ∃ d, s.dlq d ≠ .exited
  | .fanProduced _ ok => ok = false → s.room = true → ∃ d, s.dlq d ≠ .exited
  | _ => True

instance [DecidableEq α] (s : State α n m) (a : Act α n m) : Decidable (Served s a) := by
  cases a <;> unfold Served <;> infer_instance

def Emptied (s : State α n m) : Prop := (∀ d, s.dlq d = .exited) → s.queue = []

theorem emptied_of_set {w : Worker α} (ht : t.dlq = update s.dlq d w) (hw : w ≠ .exited) : Emptied t := by
  intro hall
  have hd := hall d
  rw [ht, update_self] at hd
  exact absurd hd hw

theorem Emptied.trySubmit {job : α} (h : Emptied s) (hserved : s.room = true → ∃ d, s.dlq d ≠ .exited) :
    Emptied (s.trySubmit job) := by
  unfold State.trySubmit
  split
  · rename_i hroom
    obtain ⟨d, hd⟩ := hserved hroom
    exact fun hall => absurd (hall d) hd
  · exact h

theorem Emptied.step (h : Emptied s) (ha : Served s a) (hs : step maxRetries s a = some t) : Emptied t := by
  cases a with simp only [DeadLetterQueue.step] at hs
  | submit job =>
    cases hs
    exact h.trySubmit ha
  | fanReceive f job | fanExit f | shutdown | cancel | closeClient | returned =>
    split at hs <;> cases hs
    exact h
  | fanProduced f ok =>
    split at hs
    · have hidle : Emptied (s.setFan f .idle) := h
      split at hs
      · split at hs <;> cases hs
        exact hidle
      · rename_i hok
        cases hs
        exact hidle.trySubmit (ha (Bool.not_eq_true _ ▸ hok))
    · cases hs
  | receive d | retry d | abort d | abandon d =>
    split at hs <;> cases hs
    exact emptied_of_set rfl nofun
  | produced d ok =>
    split at hs
    · split at hs
      · split at hs <;> cases hs
        exact emptied_of_set rfl nofun
      · split at hs <;> cases hs <;> exact emptied_of_set rfl nofun
    · cases hs
  | drain d =>
    split at hs <;> cases hs
    · rename_i hw hq
      exact fun _ => hq
    · rename_i hw hq
      intro hall
      cases hw.symm.trans (hall d)

theorem conserved_initial : Conserved (initial : State α n m) := by simp [Conserved, initial, inHand, Worker.jobs]

theorem inHand_exited {dlq : Fin n → Worker α} (h : ∀ d, dlq d = .exited) : inHand dlq = 0 :=
  Finset.sum_eq_zero fun d _ => by rw [h d]; rfl

/-- **Where the dead letters go.** In every run, each accepted job is in one place. A run in which none is accepted after the
last worker has exited leaves each written or counted, once. -/
theorem deadLetters_written_or_counted (maxRetries : ℕ) (acts : List (Act α n m)) (s : State α n m)
    (hrun : run (step maxRetries) initial acts = some s) :
    s.accepted = s.written + s.counted + s.queue + inHand s.dlq ∧
    (Along (step maxRetries) Served initial acts → (∀ d, s.dlq d = .exited) →
      s.queue = [] ∧ s.accepted = s.written + s.counted) := by
  have hcons : Conserved s := run_invariant Conserved (fun _ _ _ h hs => h.step hs) conserved_initial hrun
  refine ⟨hcons, fun hserved hall => ?_⟩
  have hq : s.queue = [] :=
    run_invariant_along Emptied (fun _ _ _ h ha hs => h.step ha hs) (fun _ => rfl) hserved hrun hall
  have heq : s.accepted = _ := hcons
  exact ⟨hq, by simpa [hq, inHand_exited hall] using heq⟩

def servedRun : List (Act ℕ 1 1) :=
  [.submit 1, .receive 0, .produced 0 true, .shutdown, .fanExit 0, .submit 2, .cancel, .abandon 0, .drain 0, .drain 0,
    .closeClient, .returned]

theorem deadLetters_written_or_counted_close : ∃ s, run (step 3) initial servedRun = some s ∧ (∀ d, s.dlq d = .exited) ∧
    s.accepted = s.written + s.counted ∧ s.written = {1} ∧ s.counted = {2} :=
  ⟨_, rfl, by decide +kernel,
    ((deadLetters_written_or_counted 3 servedRun _ rfl).2 (by decide +kernel) (by decide +kernel)).2, by decide +kernel,
    by decide +kernel⟩

def straggler : List (Act ℕ 1 1) :=
  [.fanReceive 0 1, .shutdown, .cancel, .abandon 0, .drain 0, .closeClient, .fanProduced 0 false, .fanExit 0, .returned]

/-- **Bug**: its dead letter is accepted, and everybody has gone. -/
theorem straggler_stays_queued : ∃ s, run (step 3) (initial : State ℕ 1 1) straggler = some s ∧ (∀ d, s.dlq d = .exited) ∧
    (∀ f, s.fan f = .exited) ∧ s.phase = .returned ∧ s.accepted = {1} ∧ s.queue = [1] ∧ s.written = 0 ∧ s.counted = 0 :=
  exists_run (by decide +kernel)

end Sukko.Kafka.DeadLetterQueue
