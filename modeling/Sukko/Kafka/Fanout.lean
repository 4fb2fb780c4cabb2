import Sukko.Kafka.Record
import Sukko.Lib.Slots
import Sukko.Lib.Steps
/-
# The egress fan-out pool: every copy is written or counted once

`NewProducer` (`producer.go:277`) builds the pool only for a positive number of workers. A `Submit` call holds the read lock
throughout; `close` is the section under the write lock.

**franz-go boundary**: `ProduceSync` returns nil when the record is written and an error when it is not.
-/

namespace Sukko.Kafka.Fanout
open List Function Option
open Steps

structure FanoutJob where
  topic : GoStr
  record : Record
  tenant : GoStr
deriving DecidableEq

structure Copy where
  id : Nat
  job : FanoutJob
deriving DecidableEq

/-- The `reason` label of `droppedCounter` (`constants.go:74-76`). -/
inductive DropReason
  | queueFull
  | shutdown
  | postShutdown
deriving DecidableEq

/-- `FailureKind…` (`constants.go:27-29`). -/
inductive FailureKind
  | retriesExhausted
  | nonRetryable
  | notAttempted
deriving DecidableEq

def FailureKind.text : FailureKind → GoStr
  | .retriesExhausted => str "retries_exhausted"
  | .nonRetryable => str "non_retryable"
  | .notAttempted => str "not_attempted"

/-- What `FirstErr` returned: nil, or an error with its text; `nonRetriable` is a `kerr.Error` without `Retriable`. -/
inductive Produced
  | ok
  | err (nonRetriable : Bool) (message : GoStr)
deriving DecidableEq

def egressFailureKind (nonRetriable : Bool) : FailureKind :=
  if nonRetriable then .nonRetryable else .retriesExhausted

def maxFailureCauseLen : Nat := 256

/-- `ReasonFanoutTopicWriteFailed` (`constants.go:41`). -/
def reasonFanoutTopicWriteFailed : GoStr := str "fanout_topic_write_failed"

def deadLetterRecord (topicNamespace : GoStr) (job : FanoutJob) (kind : FailureKind) (cause : Option GoStr) : Record where
  topic := buildTopicName topicNamespace job.tenant (str "dead-letter")
  partition := 0
  offset := 0
  key := job.record.key
  value := job.record.value
  headers := job.record.headers ++
    [⟨headerReason, some reasonFanoutTopicWriteFailed⟩, ⟨str "x-sukko-failed-topics", some job.topic⟩,
      ⟨str "x-sukko-failure-kind", some kind.text⟩] ++
    (cause.map fun msg => ⟨str "x-sukko-failure-cause", some (msg.take maxFailureCauseLen)⟩).toList

def egressRecord (job : FanoutJob) : Record where
  topic := job.topic
  partition := 0
  offset := 0
  key := job.record.key
  value := job.record.value
  headers := job.record.headers

inductive Worker
  | idle
  | busy (c : Copy)
  | exited
deriving DecidableEq

def Worker.copy : Worker → Option Copy
  | .busy c => some c
  | .idle | .exited => none

inductive Phase
  | running
  | waiting
  | draining
  | drained
  | cancelled
deriving DecidableEq

def Phase.returned : Phase → Bool
  | .drained | .cancelled => true
  | .running | .waiting | .draining => false

structure Config where
  queueSize : Nat
  topicNamespace : GoStr
deriving DecidableEq

structure State (n : Nat) where
  submitted : List Copy
  entered : List Copy
  sending : List Copy
  queue : List Copy
  closed : Bool
  phase : Phase
  workers : Fin n → Worker
  taken : List (Fin n × Copy)
  written : List (Copy × Record)
  writeFailed : List Copy
  dropped : List (Copy × DropReason)
  dlq : List (Copy × Record)
  dlqDropped : List Copy
  panicked : Bool

/-- See `server/kafka/fanout_worker.go:89`. -/
def State.start (n : Nat) : State n where
  submitted := []
  entered := []
  sending := []
  queue := []
  closed := false
  phase := .running
  workers := fun _ => .idle
  taken := []
  written := []
  writeFailed := []
  dropped := []
  dlq := []
  dlqDropped := []
  panicked := false

inductive Act (n : Nat)
  | submit (job : FanoutJob)
  | check (c : Copy)
  | send (c : Copy)
  | hand (c : Copy) (w : Fin n)
  | full (c : Copy) (dlqRoom : Bool)
  | take (w : Fin n)
  | produce (w : Fin n) (r : Produced) (dlqRoom : Bool)
  | exit (w : Fin n)
  | close
  | waited
  | timeout
  | drain
  | drainEnd
  | cancel
deriving DecidableEq

variable {n : Nat}

def State.setWorker (s : State n) (w : Fin n) (st : Worker) : State n :=
  { s with workers := Function.update s.workers w st }

def State.drop (s : State n) (c : Copy) (reason : DropReason) : State n :=
  { s with dropped := s.dropped ++ [(c, reason)] }

/-- See `server/kafka/fanout_worker.go:221`. -/
def State.deadLetter (cfg : Config) (s : State n) (c : Copy) (kind : FailureKind) (cause : Option GoStr)
    (dlqRoom : Bool) : State n :=
  { s with
    dlq := if dlqRoom then s.dlq ++ [(c, deadLetterRecord cfg.topicNamespace c.job kind cause)] else s.dlq
    dlqDropped := if dlqRoom then s.dlqDropped else s.dlqDropped ++ [c] }

def State.receive (s : State n) (w : Fin n) (c : Copy) : State n :=
  { s.setWorker w (.busy c) with taken := s.taken ++ [(w, c)] }

/-- The `select` of `Submit` by a call that is at it: a send case on a closed channel panics, whichever case is ready. -/
def State.atSelect (s : State n) (c : Copy) (outcome : State n → Option (State n)) : Option (State n) :=
  if c ∈ s.sending then
    if s.closed then some { s with panicked := true }
    else outcome { s with sending := s.sending.erase c }
  else none

/-- After `ProduceSync` (`process`, `:187-199`). -/
def State.produced (cfg : Config) (s : State n) (w : Fin n) (c : Copy) (r : Produced) (dlqRoom : Bool) : State n :=
  match r with
  | .ok => { s.setWorker w .idle with written := s.written ++ [(c, egressRecord c.job)] }
  | .err nonRetriable message =>
    State.deadLetter cfg { s.setWorker w .idle with writeFailed := s.writeFailed ++ [c] } c
      (egressFailureKind nonRetriable) (some message) dlqRoom

def step (cfg : Config) (s : State n) : Act n → Option (State n)
  | .submit job =>
    if 0 < n then
      let c : Copy := ⟨s.submitted.length, job⟩
      some { s with submitted := s.submitted ++ [c], entered := s.entered ++ [c] }
    else none
  | .check c =>
    if c ∈ s.entered then
      let s₁ := { s with entered := s.entered.erase c }
      some (if s.closed then s₁.drop c .postShutdown else { s₁ with sending := s.sending ++ [c] })
    else none
  | .send c =>
    s.atSelect c fun s₁ => if s.queue.length < cfg.queueSize then some { s₁ with queue := s.queue ++ [c] } else none
  | .hand c w =>
    s.atSelect c fun s₁ => if s.queue = [] ∧ s.workers w = .idle then some (s₁.receive w c) else none
  | .full c dlqRoom =>
    s.atSelect c fun s₁ =>
      if cfg.queueSize ≤ s.queue.length then some ((s₁.drop c .queueFull).deadLetter cfg c .notAttempted none dlqRoom)
      else none
  | .take w =>
    match s.queue with
    | c :: rest => if s.workers w = .idle then some (State.receive { s with queue := rest } w c) else none
    | [] => none
  | .produce w r dlqRoom =>
    match s.workers w with
    | .busy c => some (s.produced cfg w c r dlqRoom)
    | .idle | .exited => none
  | .exit w =>
    if s.workers w = .idle ∧ ((s.closed = true ∧ s.queue = []) ∨ s.phase = .cancelled) then some (s.setWorker w .exited)
    else none
  | .close =>
    if s.phase = .running ∧ s.entered = [] ∧ s.sending = [] then some { s with closed := true, phase := .waiting }
    else none
  | .waited =>
    if s.phase = .waiting ∧ ∀ w, s.workers w = .exited then some { s with phase := .drained } else none
  | .timeout => if s.phase = .waiting then some { s with phase := .draining } else none
  | .drain =>
    match s.queue with
    | c :: rest => if s.phase = .draining then some (State.drop { s with queue := rest } c .shutdown) else none
    | [] => none
  | .drainEnd => if s.phase = .draining ∧ s.queue = [] then some { s with phase := .drained } else none
  | .cancel => if s.phase = .drained then some { s with phase := .cancelled } else none

/-! ## Where a copy is -/

def State.busy (s : State n) : List Copy := Slots.contents (Worker.copy ∘ s.workers)

def State.pending (s : State n) (c : Copy) : Nat :=
  s.entered.count c + s.sending.count c + s.queue.count c + s.busy.count c

def State.writes (s : State n) (c : Copy) : Nat := s.written.count (c, egressRecord c.job)

def State.counted (s : State n) (c : Copy) : Nat :=
  s.writeFailed.count c + (s.dropped.map Prod.fst).count c

/-- No goroutine of the pool is left: no call of `Submit`, no worker, and `Close` is past `cancel`. -/
def State.Finished (s : State n) : Prop :=
  s.entered = [] ∧ s.sending = [] ∧ (∀ w, s.workers w = .exited) ∧ s.phase = .cancelled

instance (s : State n) : Decidable s.Finished := inferInstanceAs (Decidable (_ ∧ _ ∧ _ ∧ _))

structure Accounted (s : State n) : Prop where
  ids : s.submitted.map Copy.id = List.range s.submitted.length
  pooled : s.submitted ≠ [] → 0 < n
  places : ∀ c, s.pending c + s.writes c + s.counted c = s.submitted.count c
  received : ∀ c, (s.taken.map Prod.snd).count c = s.busy.count c + s.writes c + s.writeFailed.count c
  offered : ∀ c, (s.dlq.map Prod.fst).count c + s.dlqDropped.count c =
    s.writeFailed.count c + s.dropped.count (c, .queueFull)

structure Guarded (s : State n) : Prop where
  sending : s.sending ≠ [] → s.closed = false
  closed : s.phase ≠ .running → s.closed = true
  exited : (∃ w, s.workers w = .exited) → s.closed = true ∧ s.queue = []
  returned : s.phase.returned = true → s.queue = []
  panicked : s.panicked = false

theorem count_cons_copy (c : Copy) (l : List Copy) (d : Copy) : (c :: l).count d = [c].count d + l.count d := by
  rw [count_cons, count_singleton, Nat.add_comm]

theorem count_erase_add {l : List Copy} {c : Copy} (h : c ∈ l) (d : Copy) : (l.erase c).count d + [c].count d = l.count d := by
  have hp := (perm_cons_erase h).count_eq d
  rw [hp, count_cons_copy c (l.erase c), Nat.add_comm]

theorem State.count_busy_setWorker (s : State n) (w : Fin n) (st : Worker) (d : Copy) :
    (s.setWorker w st).busy.count d + (s.workers w).copy.toList.count d = s.busy.count d + st.copy.toList.count d := by
  have h := Slots.count_contents_update (Worker.copy ∘ s.workers) w st.copy d
  rw [← comp_update] at h
  exact h

theorem count_queueFull_singleton (c : Copy) (reason : DropReason) (d : Copy) :
    [(c, reason)].count (d, .queueFull) = if reason = .queueFull then [c].count d else 0 := by
  cases reason <;> simp [count_singleton]

theorem count_written_singleton (c d : Copy) : [(c, egressRecord c.job)].count (d, egressRecord d.job) = [c].count d := by
  by_cases h : c = d
  · subst h
    simp
  · simp [h]

/-! ## The copies -/

namespace Accounted
variable {cfg : Config} {s s' : State n}

theorem of_moved (hi : Accounted s) (hs : s'.submitted = s.submitted)
    (hp : ∀ d, s'.pending d + s'.writes d + s'.counted d = s.pending d + s.writes d + s.counted d)
    (hr : ∀ d, (s'.taken.map Prod.snd).count d + (s.busy.count d + s.writes d + s.writeFailed.count d) =
      (s.taken.map Prod.snd).count d + (s'.busy.count d + s'.writes d + s'.writeFailed.count d))
    (ho : ∀ d, (s'.dlq.map Prod.fst).count d + s'.dlqDropped.count d +
        (s.writeFailed.count d + s.dropped.count (d, .queueFull)) =
      (s.dlq.map Prod.fst).count d + s.dlqDropped.count d +
        (s'.writeFailed.count d + s'.dropped.count (d, .queueFull))) : Accounted s' where
  ids := by rw [hs]; exact hi.ids
  pooled := by rw [hs]; exact hi.pooled
  places d := by rw [hp d, hi.places d, hs]
  received d := by
    have hm := hr d
    have hold := hi.received d
    omega
  offered d := by
    have hm := ho d
    have hold := hi.offered d
    omega

theorem submit (hi : Accounted s) (hn : 0 < n) (job : FanoutJob) : Accounted { s with
      submitted := s.submitted ++ [⟨s.submitted.length, job⟩], entered := s.entered ++ [⟨s.submitted.length, job⟩] } where
  ids := by simp [hi.ids, range_succ]
  pooled := fun _ => hn
  places d := by
    have hold := hi.places d
    simp only [State.pending, State.counted, State.writes, State.busy, count_append] at hold ⊢
    omega
  received := hi.received
  offered := hi.offered

variable {c : Copy} {w : Fin n}

section
variable (hi : Accounted s)
include hi

theorem check (hc : c ∈ s.entered) :
    Accounted (if s.closed then State.drop { s with entered := s.entered.erase c } c .postShutdown
      else { s with entered := s.entered.erase c, sending := s.sending ++ [c] }) := by
  cases s.closed with
  | true =>
    refine hi.of_moved rfl (fun d => ?_) (fun d => rfl) fun d => ?_
    · have hd := count_erase_add hc d
      simp only [if_true, State.drop, State.pending, State.counted, State.writes, State.busy, map_append, count_append,
        map_cons, map_nil]
      omega
    · simp only [if_true, State.drop, count_append, count_queueFull_singleton, reduceCtorEq, if_false, Nat.add_zero]
  | false =>
    refine hi.of_moved rfl (fun d => ?_) (fun d => rfl) fun d => rfl
    have hd := count_erase_add hc d
    simp only [Bool.false_eq_true, if_false, State.pending, State.counted, State.writes, State.busy, count_append]
    omega

theorem send (hc : c ∈ s.sending) : Accounted { s with sending := s.sending.erase c, queue := s.queue ++ [c] } := by
  refine hi.of_moved rfl (fun d => ?_) (fun d => rfl) fun d => rfl
  have hd := count_erase_add hc d
  simp only [State.pending, State.counted, State.writes, State.busy, count_append]
  omega

theorem receive (hw : s.workers w = .idle) {sending queue : List Copy}
    (hm : ∀ d, sending.count d + queue.count d + [c].count d = s.sending.count d + s.queue.count d) :
    Accounted (State.receive { s with sending := sending, queue := queue } w c) := by
  have hbs (d : Copy) : (s.setWorker w (.busy c)).busy.count d = s.busy.count d + [c].count d := by
    have h := s.count_busy_setWorker w (.busy c) d
    rw [hw] at h
    exact h
  refine hi.of_moved rfl (fun d => ?_) (fun d => ?_) fun d => rfl
  · have hd := hm d
    have hb := hbs d
    simp only [State.receive, State.pending, State.counted, State.writes, State.busy, State.setWorker] at hb ⊢
    omega
  · have hb := hbs d
    simp only [State.receive, State.writes, State.busy, State.setWorker, map_append, count_append, map_cons, map_nil] at hb ⊢
    omega

theorem full (hc : c ∈ s.sending) (dlqRoom : Bool) :
    Accounted ((State.drop { s with sending := s.sending.erase c } c .queueFull).deadLetter cfg c .notAttempted none
      dlqRoom) := by
  refine hi.of_moved rfl (fun d => ?_) (fun d => rfl) fun d => ?_
  · have hd := count_erase_add hc d
    simp only [State.deadLetter, State.drop, State.pending, State.counted, State.writes, State.busy, map_append,
      count_append, map_cons, map_nil]
    omega
  · cases dlqRoom <;>
      simp only [State.deadLetter, State.drop, count_queueFull_singleton, map_append, count_append, map_cons,
        map_nil, if_true, Bool.false_eq_true, if_false] <;>
      omega

theorem produced (hw : s.workers w = .busy c) (r : Produced) (dlqRoom : Bool) : Accounted (s.produced cfg w c r dlqRoom) := by
  have hbs (d : Copy) : (s.setWorker w .idle).busy.count d + [c].count d = s.busy.count d := by
    have h := s.count_busy_setWorker w .idle d
    rw [hw] at h
    exact h
  cases r with
  | ok =>
    refine hi.of_moved rfl (fun d => ?_) (fun d => ?_) fun d => rfl
    all_goals
      have hb := hbs d
      simp only [State.produced, State.pending, State.counted, State.writes, State.busy, State.setWorker,
        count_append, count_written_singleton] at hb ⊢
      omega
  | err nonRetriable message =>
    refine hi.of_moved rfl (fun d => ?_) (fun d => ?_) fun d => ?_
    · have hb := hbs d
      simp only [State.produced, State.deadLetter, State.pending, State.counted, State.writes, State.busy, State.setWorker,
        count_append] at hb ⊢
      omega
    · have hb := hbs d
      simp only [State.produced, State.deadLetter, State.writes, State.busy, State.setWorker, count_append] at hb ⊢
      omega
    · cases dlqRoom <;>
        simp only [State.produced, State.deadLetter, State.setWorker, map_append, count_append, map_cons,
          map_nil, if_true, Bool.false_eq_true, if_false] <;>
        omega

theorem exit (hw : s.workers w = .idle) : Accounted (s.setWorker w .exited) := by
  have hb (d : Copy) : (s.setWorker w .exited).busy.count d = s.busy.count d := by
    have h := s.count_busy_setWorker w .exited d
    rw [hw] at h
    exact h
  refine hi.of_moved rfl (fun d => ?_) (fun d => ?_) fun d => rfl
  · rw [State.pending, hb d]
    rfl
  · rw [hb d]
    rfl

theorem drain {rest : List Copy} (hq : s.queue = c :: rest) : Accounted (State.drop { s with queue := rest } c .shutdown) := by
  refine hi.of_moved rfl (fun d => ?_) (fun d => rfl) fun d => ?_
  · have hd := count_cons_copy c rest d
    rw [← hq] at hd
    simp only [State.drop, State.pending, State.counted, State.writes, State.busy, map_append, count_append, map_cons, map_nil]
    omega
  · simp only [State.drop, count_append, count_queueFull_singleton, reduceCtorEq, if_false, Nat.add_zero]

end

theorem start (n : Nat) : Accounted (State.start n) := by
  have hb : (State.start n).busy = [] := filterMap_eq_nil_iff.2 fun _ _ => rfl
  refine ⟨rfl, fun h => absurd rfl h, fun d => ?_, fun d => ?_, fun d => rfl⟩
  · rw [State.pending, hb]
    rfl
  · rw [hb]
    rfl

variable (hi : Accounted s)
include hi

theorem unmoved (closed : Bool) (phase : Phase) : Accounted { s with closed := closed, phase := phase } :=
  hi.of_moved rfl (fun _ => rfl) (fun _ => rfl) fun _ => rfl

theorem submitted_nodup : s.submitted.Nodup := List.Nodup.of_map Copy.id (hi.ids ▸ nodup_range)

theorem taken_nodup : (s.taken.map Prod.snd).Nodup := by
  refine nodup_iff_count_le_one.2 fun c => ?_
  have ho := nodup_iff_count_le_one.1 hi.submitted_nodup c
  have hp := hi.places c
  have hr := hi.received c
  simp only [State.pending, State.counted] at hp
  omega

theorem queue_of_no_workers (hn : n = 0) : s.queue = [] := by
  have hnn : s.submitted = [] := by
    by_contra hne
    exact absurd (hi.pooled hne) (by omega)
  refine eq_nil_iff_forall_not_mem.2 fun c hc => ?_
  have hps := count_pos_iff.2 hc
  have hp := hi.places c
  simp only [State.pending, hnn, count_nil] at hp
  omega

end Accounted

/-! ## The handoff channel -/

namespace Guarded
variable {s s' : State n}

theorem start (n : Nat) : Guarded (State.start n) where
  sending h := absurd rfl h
  closed h := absurd rfl h
  exited := fun ⟨_, hw⟩ => nomatch hw
  returned := fun h => nomatch h
  panicked := rfl

theorem of_unlocked (hg : Guarded s) (hs : s'.sending ≠ [] → s.closed = false) (hcl : s'.closed = s.closed)
    (hph : s'.phase = s.phase) (he : ∀ w, s'.workers w = .exited → s.workers w = .exited)
    (hqu : s.closed = true → s.queue = [] → s'.queue = []) (hp : s'.panicked = false) : Guarded s' where
  sending h := hcl.trans (hs h)
  closed h := by
    rw [hph] at h
    exact hcl.trans (hg.closed h)
  exited := by
    rintro ⟨w, hw⟩
    obtain ⟨hc, hq⟩ := hg.exited ⟨w, he w hw⟩
    exact ⟨hcl.trans hc, hqu hc hq⟩
  returned h := by
    rw [hph] at h
    have hne : s.phase ≠ .running := by
      intro hr
      rw [hr] at h
      cases h
    exact hqu (hg.closed hne) (hg.returned h)
  panicked := hp

theorem exited_of_update {ws : Fin n → Worker} {w : Fin n} {st : Worker} (hst : st ≠ .exited) (w' : Fin n)
    (h : Function.update ws w st w' = .exited) : ws w' = .exited := by
  by_cases hw : w' = w
  · subst hw
    rw [update_self] at h
    exact absurd h hst
  · rwa [update_of_ne hw] at h

variable (hg : Guarded s)
include hg

theorem open_of_mem {c : Copy} (hc : c ∈ s.sending) : s.closed = false := hg.sending (ne_nil_of_mem hc)

theorem atSelect {c : Copy} {k : State n → Option (State n)} (hs : s.atSelect c k = some s') :
    c ∈ s.sending ∧ s.closed = false ∧ k { s with sending := s.sending.erase c } = some s' := by
  unfold State.atSelect at hs
  split at hs
  · rename_i hc
    have ho := hg.open_of_mem hc
    rw [if_neg (by simp [ho])] at hs
    exact ⟨hc, ho, hs⟩
  · cases hs

theorem exit {w : Fin n} (h : (s.closed = true ∧ s.queue = []) ∨ s.phase = .cancelled) : Guarded (s.setWorker w .exited) := by
  have hd : s.closed = true ∧ s.queue = [] := by
    rcases h with h | hp
    · exact h
    · exact ⟨hg.closed (by rw [hp]; decide), hg.returned (by rw [hp]; rfl)⟩
  exact { hg with exited := fun _ => hd }

theorem waited (hi : Accounted s) (hp : s.phase = .waiting) (ha : ∀ w, s.workers w = .exited) :
    Guarded { s with phase := .drained } := by
  refine { hg with closed := fun _ => hg.closed (by rw [hp]; decide), returned := fun _ => ?_ }
  rcases Nat.eq_zero_or_pos n with hn | hn
  · exact hi.queue_of_no_workers hn
  · exact (hg.exited ⟨⟨0, hn⟩, ha _⟩).2

end Guarded

/-! ## Every run -/

theorem inv_step {cfg : Config} {s s' : State n} {a : Act n} (hi : Accounted s) (hg : Guarded s)
    (hs : step cfg s a = some s') : Accounted s' ∧ Guarded s' := by
  cases a with simp only [step, guarded] at hs
  | submit job =>
    obtain ⟨hn, rfl⟩ := hs
    exact ⟨hi.submit hn job, { hg with }⟩
  | check c =>
    obtain ⟨hc, rfl⟩ := hs
    refine ⟨hi.check hc, ?_⟩
    -- the branch into the `select` is taken only while the channel is open
    by_cases hcl : s.closed = true
    · rw [if_pos hcl]
      exact { hg with }
    · rw [if_neg hcl]
      exact { hg with sending := fun _ => Bool.eq_false_iff.2 hcl }
  | send c =>
    obtain ⟨hc, ho, hs⟩ := hg.atSelect hs
    simp only [guarded] at hs
    obtain ⟨-, rfl⟩ := hs
    refine ⟨hi.send hc, ?_⟩
    exact hg.of_unlocked (fun _ => ho) rfl rfl (fun _ h => h) (fun hcl => by simp [ho] at hcl) hg.panicked
  | hand c w =>
    obtain ⟨hc, ho, hs⟩ := hg.atSelect hs
    simp only [guarded] at hs
    obtain ⟨⟨-, hw⟩, rfl⟩ := hs
    refine ⟨hi.receive hw fun d => ?_, ?_⟩
    · have hd := count_erase_add hc d
      omega
    · exact hg.of_unlocked (fun _ => ho) rfl rfl (Guarded.exited_of_update (by simp)) (fun _ hq => hq) hg.panicked
  | full c dlqRoom =>
    obtain ⟨hc, ho, hs⟩ := hg.atSelect hs
    simp only [guarded] at hs
    obtain ⟨-, rfl⟩ := hs
    refine ⟨hi.full hc dlqRoom, ?_⟩
    exact hg.of_unlocked (fun _ => ho) rfl rfl (fun _ h => h) (fun _ hq => hq) hg.panicked
  | take w =>
    cases hq : s.queue with
    | nil => simp [hq] at hs
    | cons c rest =>
      simp only [hq, guarded] at hs
      obtain ⟨hw, rfl⟩ := hs
      refine ⟨hi.receive hw fun d => ?_, ?_⟩
      · have hd := count_cons_copy c rest d
        rw [hq]
        omega
      · exact hg.of_unlocked hg.sending rfl rfl (Guarded.exited_of_update (by simp)) (fun _ h => by simp [hq] at h) hg.panicked
  | produce w r dlqRoom =>
    cases hw : s.workers w with
    | idle | exited => simp [hw] at hs
    | busy c =>
      simp only [hw] at hs
      cases hs
      refine ⟨hi.produced hw r dlqRoom, ?_⟩
      cases r <;>
        exact hg.of_unlocked hg.sending rfl rfl (Guarded.exited_of_update (by simp)) (fun _ h => h) hg.panicked
  | exit w =>
    obtain ⟨⟨hw, h⟩, rfl⟩ := hs
    exact ⟨hi.exit hw, hg.exit h⟩
  | close =>
    obtain ⟨⟨-, -, hsn⟩, rfl⟩ := hs
    refine ⟨hi.unmoved true _, ?_⟩
    exact ⟨fun h => absurd hsn h, fun _ => rfl, fun h => ⟨rfl, (hg.exited h).2⟩, (nomatch ·), hg.panicked⟩
  | waited =>
    obtain ⟨⟨hp, ha⟩, rfl⟩ := hs
    exact ⟨hi.unmoved s.closed _, hg.waited hi hp ha⟩
  | timeout =>
    obtain ⟨hp, rfl⟩ := hs
    refine ⟨hi.unmoved s.closed _, ?_⟩
    exact { hg with closed := fun _ => hg.closed (by rw [hp]; decide), returned := fun h => nomatch h }
  | drain =>
    cases hq : s.queue with
    | nil => simp [hq] at hs
    | cons c rest =>
      simp only [hq, guarded] at hs
      obtain ⟨-, rfl⟩ := hs
      refine ⟨hi.drain hq, ?_⟩
      exact hg.of_unlocked hg.sending rfl rfl (fun _ h => h) (fun _ h => by simp [hq] at h) hg.panicked
  | drainEnd =>
    obtain ⟨⟨hp, hq⟩, rfl⟩ := hs
    refine ⟨hi.unmoved s.closed _, ?_⟩
    exact { hg with closed := fun _ => hg.closed (by rw [hp]; decide), returned := fun _ => hq }
  | cancel =>
    obtain ⟨hp, rfl⟩ := hs
    refine ⟨hi.unmoved s.closed _, ?_⟩
    exact { hg with
      closed := fun _ => hg.closed (by rw [hp]; decide), returned := fun _ => hg.returned (by rw [hp]; rfl) }

theorem run_inv {cfg : Config} {as : List (Act n)} {s : State n} (hr : run (step cfg) (State.start n) as = some s) :
    Accounted s ∧ Guarded s :=
  run_invariant (fun s => Accounted s ∧ Guarded s) (fun _ _ _ h hs => inv_step h.1 h.2 hs)
    ⟨Accounted.start n, Guarded.start n⟩ hr

theorem State.Finished.pending {s : State n} (hf : s.Finished) (hg : Guarded s) (c : Copy) : s.pending c = 0 := by
  obtain ⟨he, hs, hw, hp⟩ := hf
  have hq : s.queue = [] := hg.returned (by rw [hp]; rfl)
  have hb : s.busy = [] := by
    refine filterMap_eq_nil_iff.2 fun w _ => ?_
    rw [comp_apply, hw w]
    rfl
  rw [State.pending, he, hs, hq, hb]
  rfl

/-- **No egress copy is lost silently**, in any interleaving with a `Close` whose wait may time out at any point; no send meets
the closed handoff. -/
theorem egressCopies_accounted (cfg : Config) (n : Nat) (as : List (Act n)) (s : State n)
    (hrun : run (step cfg) (State.start n) as = some s) :
    (s.taken.map Prod.snd).Nodup ∧ s.panicked = false ∧ (s.phase.returned = true → s.queue = []) ∧
      (s.Finished → ∀ c ∈ s.submitted, s.writes c + s.counted c = 1) := by
  obtain ⟨hi, hg⟩ := run_inv hrun
  refine ⟨hi.taken_nodup, hg.panicked, hg.returned, fun hf c hc => ?_⟩
  have hplaces := hi.places c
  rw [hf.pending hg c, count_eq_one_of_mem hi.submitted_nodup hc] at hplaces
  omega

def timedOutClose : List (Act 2) :=
  let job : FanoutJob :=
    ⟨str "prod.acme.audit", ⟨str "prod.acme.trade", 0, 0, str "acme.trade", str "1", []⟩, str "acme"⟩
  let copy (i : Nat) : Copy := ⟨i, job⟩
  let w₀ : Fin 2 := ⟨0, Nat.zero_lt_two⟩
  let w₁ : Fin 2 := ⟨1, Nat.one_lt_two⟩
  [.submit job, .check (copy 0), .hand (copy 0) w₀, .submit job, .check (copy 1), .send (copy 1), .take w₁,
    .submit job, .check (copy 2), .send (copy 2), .submit job, .check (copy 3), .full (copy 3) false,
    .close, .submit job, .check (copy 4), .produce w₀ .ok true, .timeout, .drain, .drainEnd, .cancel,
    .produce w₁ (.err false (str "client closed")) true, .exit w₀, .exit w₁]

theorem egressCopies_accounted_timedOutClose :
    ∃ s, run (step ⟨1, str "prod"⟩) (State.start 2) timedOutClose = some s ∧ s.Finished ∧ s.submitted.length = 5 ∧
      ∀ c ∈ s.submitted, s.writes c + s.counted c = 1 := by
  have hend : (run (step ⟨1, str "prod"⟩) (State.start 2) timedOutClose).map
      (fun s => (decide s.Finished, s.submitted.length)) = some (true, 5) := by decide +kernel
  obtain ⟨s, hrun, hs⟩ := map_eq_some_iff.1 hend
  obtain ⟨hfinished, hlength⟩ := Prod.mk.inj hs
  have hf : s.Finished := of_decide_eq_true hfinished
  exact ⟨s, hrun, hf, hlength, (egressCopies_accounted ⟨1, str "prod"⟩ 2 timedOutClose s hrun).2.2.2 hf⟩

end Sukko.Kafka.Fanout
