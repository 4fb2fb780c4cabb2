import Sukko.Webhook.Delivery
/-
# Waiting delivery workers

A delivery worker takes a task from either queue and waits for its time before it delivers (`webhook/worker/runner.go:422-455`).
The steps are those of `Delivery`: a job is a busy worker, and `dropOldest` (`:563-626`) goes through the queue task by task.
-/

namespace Sukko.WebhookDelivery.Dispatch
open Steps List

/-- The tasks that a busy worker holds and that are not delivered: the one it waits for, or those it took out of the queue. -/
def held : Job → List DeliveryTask
  | ⟨task, .waiting⟩ => [task]
  | ⟨_, .locking incoming⟩ => [incoming]
  | ⟨_, .draining drained incoming⟩ => drained ++ [incoming]
  | ⟨_, .refilling left⟩ => left
  | _ => []

/-- Everything that is still to be delivered. -/
def pending (w : Worker) : List DeliveryTask := w.intake ++ (w.retryQueue ++ w.jobs.flatMap held)

/-- The worker waits for a time that has not come. -/
def waits (now : Time) (j : Job) : Bool := j.stage = .waiting ∧ now < j.task.nextAt

/-- No worker waits while a task is due that no other worker is free to take. -/
def WorkConserving (cfg : Config) (now : Time) (w : Worker) : Prop :=
  (∃ j ∈ w.jobs, waits now j = true) → (∃ t ∈ w.intake ++ w.retryQueue, t.nextAt ≤ now) → w.jobs.length < cfg.workerConcurrency

instance (cfg : Config) (now : Time) (w : Worker) : Decidable (WorkConserving cfg now w) :=
  inferInstanceAs (Decidable (_ → _ → _))

/-- The task leaves its wait and is handed to `Deliver`. -/
def Delivers (w : Worker) (a : WorkerAct) (t : DeliveryTask) : Prop := ∃ i, a = .gate i ∧ w.jobs[i]? = some ⟨t, .waiting⟩

/-- A retry is received when its time has come; an event finds room in the intake; and a full retry queue costs no task that is
due: the drained queue has one that is not, and what is put back finds room or is not due. The process is not restarted. -/
def Orderly (cfg : Config) (now : Time) (w : Worker) : WorkerAct → Prop
  | .event _ => w.intake.length < cfg.workerConcurrency * intakeChannelMultiplier
  | .take true => ∀ t ∈ w.retryQueue.head?, t.nextAt ≤ now
  | .drop i =>
    match (w.jobs[i]?).map Job.stage with
    | some (.draining drained _) => w.retryQueue = [] → ∃ t ∈ drained, now < t.nextAt
    | some (.refilling (t :: _)) => w.retryQueue.length < cfg.retryQueueSize ∨ now < t.nextAt
    | _ => True
  | .restart => False
  | _ => True

instance (cfg : Config) (now : Time) (w : Worker) (a : WorkerAct) : Decidable (Orderly cfg now w a) := by
  unfold Orderly
  split
  case h_3 => split <;> infer_instance
  all_goals infer_instance

/-! ## The task that `dropOldest` throws away -/

theorem furthest_spec {ts : List DeliveryTask} {t : DeliveryTask} (h : t ∈ ts) :
    ∃ u, ts[Worker.furthest ts]? = some u ∧ t.nextAt ≤ u.nextAt := by
  induction ts generalizing t with
  | nil => cases h
  | cons a ts ih =>
    simp only [Worker.furthest]
    cases hu : ts[Worker.furthest ts]? with
    | none =>
      rcases mem_cons.1 h with rfl | h
      · exact ⟨t, rfl, Int.le_refl _⟩
      · obtain ⟨u, hu', -⟩ := ih h
        rw [hu] at hu'
        cases hu'
    | some u =>
      have hle : ∀ t ∈ ts, t.nextAt ≤ u.nextAt := by
        intro t ht
        obtain ⟨u', hu', hle⟩ := ih ht
        rw [hu] at hu'
        cases hu'
        exact hle
      dsimp only
      split
      · rename_i hlt
        refine ⟨u, hu, ?_⟩
        rcases mem_cons.1 h with rfl | h
        · exact Int.le_of_lt hlt
        · exact hle t h
      · rename_i hge
        refine ⟨a, rfl, ?_⟩
        rcases mem_cons.1 h with rfl | h
        · exact Int.le_refl _
        · exact Int.le_trans (hle t h) (Int.not_lt.1 hge)

variable {cfg : Config} {now : Time} {rows : Rows} {w w₁ w' : Worker} {a : WorkerAct} {i : Nat} {j : Job}
  {task t u : DeliveryTask} {stage : Stage} {P : DeliveryTask → Prop}

theorem mem_eraseIdx_furthest {drained : List DeliveryTask} (hu : u ∈ drained) (hf : now < u.nextAt) (ht : t ∈ drained)
    (hd : t.nextAt ≤ now) : t ∈ drained.eraseIdx (Worker.furthest drained) := by
  obtain ⟨v, hv, hle⟩ := furthest_spec hu
  obtain ⟨k, hk⟩ := mem_iff_getElem?.1 ht
  refine mem_eraseIdx_iff_getElem?.2 ⟨k, ?_, hk⟩
  rintro rfl
  rw [hv, Option.some.injEq] at hk
  subst hk
  exact absurd (Int.lt_of_lt_of_le hf hle) (Int.not_lt.2 hd)

/-! ## One step of a worker -/

theorem mem_pending : t ∈ pending w ↔ t ∈ w.intake ∨ t ∈ w.retryQueue ∨ ∃ j ∈ w.jobs, t ∈ held j := by
  simp [pending]

/-- What a step does to the tasks: `P` are those that it delivers. -/
structure Moves (now : Time) (P : DeliveryTask → Prop) (w w' : Worker) : Prop where
  intake : ∀ t ∈ w'.intake, t ∈ w.intake ∨ t.nextAt ≤ now
  jobs : ∀ j ∈ w'.jobs, j ∈ w.jobs ∨ waits now j = false
  kept : ∀ t ∈ pending w, t.nextAt ≤ now → t ∈ pending w' ∨ P t

/-- The same jobs and intake, and nothing taken out of the retry queue. -/
structure Same (w w₁ : Worker) : Prop where
  intake : w₁.intake = w.intake
  queue : w.retryQueue ⊆ w₁.retryQueue
  jobs : w₁.jobs = w.jobs

theorem Same.rfl : Same w w := ⟨Eq.refl _, Subset.refl _, Eq.refl _⟩

theorem same_sendStatusUpdate (k : Key) (status : WebhookStatus) : Same w (w.sendStatusUpdate cfg k status) := by
  unfold Worker.sendStatusUpdate
  split <;> exact ⟨rfl, Subset.refl _, rfl⟩

theorem same_sendDegraded {nextAt : Time} (h : w.sendDegraded cfg task nextAt = some w₁) : Same w w₁ := by
  unfold Worker.sendDegraded at h
  split at h <;> cases h
  exact ⟨rfl, Subset.refl _, rfl⟩

theorem same_sendRetry (h : w.sendRetry cfg task = some w₁) : Same w w₁ ∧ task ∈ w₁.retryQueue := by
  unfold Worker.sendRetry at h
  split at h <;> cases h
  exact ⟨⟨rfl, subset_append_left _ _, rfl⟩, mem_append_right _ (mem_singleton_self task)⟩

theorem Same.trans (h : Same w w₁) (h' : Same w₁ w') : Same w w' :=
  ⟨h'.intake.trans h.intake, fun _ hx => h'.queue (h.queue hx), h'.jobs.trans h.jobs⟩

theorem Same.pending (h : Same w w₁) (ht : t ∈ pending w) : t ∈ Dispatch.pending w₁ := by
  rw [mem_pending] at ht ⊢
  rw [h.intake, h.jobs]
  exact ht.imp_right fun ht => ht.imp_left fun hq => h.queue hq

theorem Same.moves (h : Same w w₁) : Moves now P w w₁ where
  intake _ ht := .inl (h.intake ▸ ht)
  jobs _ hj := .inl (h.jobs ▸ hj)
  kept _ ht _ := .inl (h.pending ht)

theorem Moves.frame (hi : w₁.intake = w.intake) (hq : w₁.retryQueue = w.retryQueue) (hj : w₁.jobs = w.jobs) : Moves now P w w₁ :=
  Same.moves ⟨hi, hq ▸ Subset.refl _, hj⟩

/-- A worker takes a task that is due out of one of its queues. -/
theorem Moves.take {intake retryQueue : List DeliveryTask} (hd : task.nextAt ≤ now) (hi : intake ⊆ w.intake)
    (hq : ∀ t ∈ w.intake ++ w.retryQueue, t = task ∨ t ∈ intake ++ retryQueue) :
    Moves now P w { w with intake := intake, retryQueue := retryQueue, jobs := w.jobs ++ [⟨task, .waiting⟩] } where
  intake _ ht := .inl (hi ht)
  jobs _ hj := (mem_append.1 hj).imp_right fun hj => by simp [mem_singleton.1 hj, waits, hd]
  kept t ht _ := by
    have hheld : task ∈ held ⟨task, .waiting⟩ := mem_singleton_self task
    rw [mem_pending] at ht ⊢
    simp only [mem_append, mem_singleton] at hq ⊢
    grind

section
variable (h : Same w w₁) (hj : w.jobs[i]? = some j)
include h hj

/-- The job ends; what it held is delivered or is in a queue now. -/
theorem Moves.finish (hh : ∀ t ∈ held j, t.nextAt ≤ now → t ∈ w₁.retryQueue ∨ P t) : Moves now P w (w₁.finish i) where
  intake _ ht := .inl (h.intake ▸ ht)
  jobs _ hm := .inl (h.jobs ▸ mem_of_mem_eraseIdx hm)
  kept t ht hd := by
    rw [mem_pending]
    rcases mem_pending.1 ht with ht | ht | ⟨j', hj', ht⟩
    · exact .inl (.inl (h.intake.symm ▸ ht))
    · exact .inl (.inr (.inl (h.queue ht)))
    · obtain ⟨k, hk⟩ := mem_iff_getElem?.1 hj'
      by_cases hki : k = i
      · subst hki
        cases hj.symm.trans hk
        exact (hh t ht hd).imp_left fun hq => .inr (.inl hq)
      · refine .inl (.inr (.inr ⟨j', mem_eraseIdx_iff_getElem?.2 ⟨k, hki, ?_⟩, ht⟩))
        rw [h.jobs]
        exact hk

theorem Moves.finishEmpty (hh : held j = []) : Moves now P w (w₁.finish i) := by
  refine Moves.finish h hj fun t ht => ?_
  rw [hh] at ht
  cases ht

/-- The job goes on; what it held is delivered, in a queue now or still held. -/
theorem Moves.stay (hs : stage ≠ .waiting)
    (hh : ∀ t ∈ held j, t.nextAt ≤ now → t ∈ w₁.retryQueue ∨ t ∈ held ⟨task, stage⟩ ∨ P t) :
    Moves now P w (w₁.stay i task stage) where
  intake _ ht := .inl (h.intake ▸ ht)
  jobs j' hm := by
    rcases mem_or_eq_of_mem_set hm with hm | rfl
    · exact .inl (h.jobs ▸ hm)
    · exact .inr (by simp [waits, hs])
  kept t ht hd := by
    rw [mem_pending]
    rcases mem_pending.1 ht with ht | ht | ⟨j', hj', ht⟩
    · exact .inl (.inl (h.intake.symm ▸ ht))
    · exact .inl (.inr (.inl (h.queue ht)))
    · obtain ⟨k, hk⟩ := mem_iff_getElem?.1 hj'
      have hlt : i < w₁.jobs.length := by
        rw [h.jobs]
        exact (List.getElem?_eq_some_iff.1 hj).1
      by_cases hki : k = i
      · subst hki
        cases hj.symm.trans hk
        rcases hh t ht hd with hq | hn | hp
        · exact .inl (.inr (.inl hq))
        · exact .inl (.inr (.inr ⟨_, mem_set hlt _, hn⟩))
        · exact .inr hp
      · refine .inl (.inr (.inr ⟨j', mem_iff_getElem?.2 ⟨k, ?_⟩, ht⟩))
        rw [Worker.stay, getElem?_set_ne (Ne.symm hki), h.jobs]
        exact hk

end

theorem moves_scheduleRetry (hj : w.jobs[i]? = some j) (hh : held j = []) : Moves now P w (w.scheduleRetry cfg now i task) := by
  have hnone : ∀ (w₁ : Worker) (t : DeliveryTask), t ∈ held j → t.nextAt ≤ now → t ∈ w₁.retryQueue ∨ P t := by
    intro w₁ t ht
    rw [hh] at ht
    cases ht
  unfold Worker.scheduleRetry
  dsimp only
  generalize (if task.attempt ≤ 0 then 1 else task.attempt) = attempt
  split
  · split
    · rename_i hd
      exact Moves.finish ((same_sendStatusUpdate _ _).trans (same_sendDegraded hd)) hj (hnone _)
    · exact Moves.stay (same_sendStatusUpdate _ _) hj (by simp) fun t ht hd => (hnone _ t ht hd).imp_right .inr
  · split
    · exact Moves.finish Same.rfl hj (hnone _)
    · split
      · rename_i hr
        exact Moves.finish (same_sendRetry hr).1 hj (hnone _)
      · exact Moves.stay Same.rfl hj (by simp) fun t ht hd => (hnone _ t ht hd).imp_right .inr

theorem moves_dropOldest (hj : w.jobs[i]? = some ⟨task, stage⟩) (ho : Orderly cfg now w (.drop i))
    (hs : w.dropOldest cfg i task stage = some w') : Moves now P w w' := by
  simp only [Orderly, hj, Option.map_some] at ho
  cases stage with simp only [Worker.dropOldest] at hs
  | locking incoming =>
    split at hs <;> cases hs
    exact Moves.stay Same.rfl hj (by simp) fun t ht _ => .inr (.inl ht)
  | draining drained incoming =>
    split at hs
    · -- one more task is drained
      rename_i t' rest hq
      cases hs
      have hm : Moves now P { w with retryQueue := rest }
          (Worker.stay { w with retryQueue := rest } i task (.draining (drained ++ [t']) incoming)) := by
        refine Moves.stay Same.rfl hj (by simp) fun t ht _ => .inr (.inl ?_)
        rcases mem_append.1 ht with ht | ht
        · exact mem_append_left _ (mem_append_left _ ht)
        · exact mem_append_right _ ht
      refine ⟨hm.intake, hm.jobs, fun t ht hd => ?_⟩
      rcases mem_pending.1 ht with ht | ht | ht
      · exact hm.kept t (mem_pending.2 (.inl ht)) hd
      · rw [hq] at ht
        rcases mem_cons.1 ht with rfl | ht
        · refine .inl (mem_pending.2 (.inr (.inr ⟨_, mem_set (List.getElem?_eq_some_iff.1 hj).1 _, ?_⟩)))
          exact mem_append_left _ (mem_append_right _ (mem_singleton_self t))
        · exact hm.kept t (mem_pending.2 (.inr (.inl ht))) hd
      · exact hm.kept t (mem_pending.2 (.inr (.inr ht))) hd
    · rename_i hq
      cases hs
      obtain ⟨u, hu, hf⟩ := ho hq
      refine Moves.stay Same.rfl hj (by simp) fun t ht hd => .inr (.inl ?_)
      rcases mem_append.1 ht with ht | ht
      · exact mem_append_left _ (mem_eraseIdx_furthest hu hf ht hd)
      · exact mem_append_right _ ht
  | refilling left =>
    cases left with
    | nil =>
      cases hs
      exact Moves.finishEmpty Same.rfl hj rfl
    | cons t' left =>
      cases hs
      cases hr : w.sendRetry cfg t' with
      | some w₁ =>
        obtain ⟨hsame, hmem⟩ := same_sendRetry hr
        refine Moves.stay hsame hj (by simp) fun t ht _ => ?_
        rcases mem_cons.1 ht with rfl | ht
        · exact .inl hmem
        · exact .inr (.inl ht)
      | none =>
        refine Moves.stay Same.rfl hj (by simp) fun t ht hd => ?_
        rcases mem_cons.1 ht with rfl | ht
        · have hfull : ¬w.retryQueue.length < cfg.retryQueueSize := fun hlt => by
            simp [Worker.sendRetry, hlt] at hr
          exact absurd hd (Int.not_le.2 (ho.resolve_left hfull))
        · exact .inr (.inl ht)
  | _ => cases hs

/-- **One step of a worker.** -/
theorem moves_act (hi : ∀ t ∈ w.intake, t.nextAt ≤ now) (ho : Orderly cfg now w a) (hs : w.act cfg now rows a = some w') :
    Moves now (Delivers w a) w w' := by
  cases a with simp only [Worker.act] at hs
  | list tenantID =>
    cases hs
    exact Moves.frame rfl rfl rfl
  | store tenantID =>
    split at hs <;> cases hs
    exact Moves.frame rfl rfl rfl
  | seed k nextAt =>
    split at hs
    · cases hs
    split at hs <;> cases hs
    exact Moves.frame rfl rfl rfl
  | event k =>
    split at hs
    · cases hs
    have hroom : w.intake.length < cfg.workerConcurrency * intakeChannelMultiplier := ho
    rw [if_pos hroom] at hs
    cases hs
    refine ⟨fun t ht => ?_, fun j hj => .inl hj, fun t ht _ => .inl ?_⟩
    · exact (mem_append.1 ht).imp_right fun ht => by rw [mem_singleton.1 ht]
    · rw [mem_pending] at ht ⊢
      exact ht.imp_left fun ht => mem_append_left _ ht
  | take retry =>
    split at hs
    · split at hs
      · rename_i t' rest hq
        cases hs
        refine Moves.take (ho t' (by rw [hq]; rfl)) (Subset.refl _) fun t ht => ?_
        simp only [hq, mem_append, mem_cons] at ht ⊢
        tauto
      · rename_i t' rest hq
        cases hs
        refine Moves.take (hi t' (by rw [hq]; exact mem_cons_self)) (by rw [hq]; exact subset_cons_self _ _) fun t ht => ?_
        simp only [hq, mem_append, mem_cons] at ht ⊢
        tauto
      · cases hs
    · cases hs
  | gate i =>
    split at hs
    · rename_i task hj
      have hgate : ∀ t ∈ held ⟨task, .waiting⟩, t.nextAt ≤ now → t ∈ w.retryQueue ∨ Delivers w (.gate i) t := by
        intro t ht _
        rw [mem_singleton.1 ht]
        exact .inr ⟨i, rfl, hj⟩
      split at hs
      · split at hs
        · cases hs
          exact Moves.finish Same.rfl hj hgate
        · split at hs <;> cases hs
          · exact Moves.finish Same.rfl hj hgate
          · exact Moves.stay Same.rfl hj (by simp) fun t ht hd => (hgate t ht hd).imp_right .inr
      · cases hs
    · cases hs
  | result i label =>
    split at hs
    · rename_i task hj
      cases hs
      split
      · exact Moves.stay (same_sendStatusUpdate _ _) hj (by simp) fun t ht => by cases ht
      · exact Moves.stay Same.rfl hj (by simp) fun t ht => by cases ht
    · cases hs
  | settle i =>
    split at hs
    · rename_i hj
      cases hs
      exact Moves.finishEmpty Same.rfl hj rfl
    · rename_i hj
      split at hs <;> cases hs
      · exact Moves.finishEmpty (same_sendStatusUpdate _ _) hj rfl
      · exact Moves.finishEmpty Same.rfl hj rfl
    · rename_i hj
      cases hs
      exact moves_scheduleRetry hj rfl
    · rename_i task hj
      cases hs
      cases hd : w.sendDegraded cfg task (now + webhookDegradedQueueFullFallback) with
      | none => exact Moves.finishEmpty Same.rfl hj rfl
      | some w₁ => exact Moves.finishEmpty (same_sendDegraded hd) hj rfl
    · cases hs
  | drop i =>
    split at hs
    · rename_i hj
      exact moves_dropOldest hj ho hs
    · cases hs
  | arm =>
    split at hs <;> cases hs
    exact Moves.frame rfl rfl rfl
  | fire i =>
    split at hs
    · cases hs
    split at hs
    · split at hs
      · cases hs
        exact Moves.frame rfl rfl rfl
      · split at hs
        · cases hs
          exact Moves.frame rfl rfl rfl
        · split at hs
          · rename_i hr
            cases hs
            obtain ⟨hsame, -⟩ := same_sendRetry hr
            exact (⟨hsame.intake, hsame.queue, hsame.jobs⟩ : Same w _).moves
          · cases hs
            exact Moves.frame rfl rfl rfl
    · cases hs
  | pick =>
    split at hs
    · cases hs
      exact Moves.frame rfl rfl rfl
    · cases hs
  | restart => exact absurd ho id

/-! ## The system -/

section System
variable {ω : Type} [DecidableEq ω] {svc : ServiceConfig} {s s' : State ω} {b : Act ω}

def OrderlyStep (cfg : Config) (s : State ω) : Act ω → Prop
  | .worker i a => Orderly cfg s.now (s.workers i) a
  | _ => True

instance (cfg : Config) (s : State ω) (b : Act ω) : Decidable (OrderlyStep cfg s b) := by
  unfold OrderlyStep
  split <;> infer_instance

/-- No step throws away a task that is due: it is still to be delivered, or the step delivers it. An event that the cache has a
webhook for is put into the intake. -/
structure KeepsDue (svc : ServiceConfig) (cfg : Config) (s : State ω) (b : Act ω) : Prop where
  kept : ∀ s', step svc cfg s b = some s' → ∀ i, ∀ t ∈ pending (s.workers i), t.nextAt ≤ s.now →
    t ∈ pending (s'.workers i) ∨ ∃ a, b = .worker i a ∧ Delivers (s.workers i) a t
  event : ∀ s', step svc cfg s b = some s' → ∀ i k, b = .worker i (.event k) →
    ∃ t ∈ (s'.workers i).intake, t.key = k ∧ t.nextAt = s.now

/-- What is in the intake is due, and no worker waits. -/
def Due (s : State ω) : Prop :=
  ∀ i, (∀ t ∈ (s.workers i).intake, t.nextAt ≤ s.now) ∧ ∀ j ∈ (s.workers i).jobs, waits s.now j = false

omit [DecidableEq ω] in
theorem due_init (now : Time) : Due (init now : State ω) := fun i => ⟨by simp [init, Worker.new], by simp [init, Worker.new]⟩

/-- A step of no worker changes neither their queues nor their jobs, and the time does not go back. -/
theorem same_of_not_worker (hb : ∀ i a, b ≠ .worker i a) (hs : step svc cfg s b = some s') :
    s.now ≤ s'.now ∧ ∀ i, Same (s.workers i) (s'.workers i) := by
  have hrefl : s.now ≤ s.now ∧ ∀ i, Same (s.workers i) (s.workers i) := ⟨Int.le_refl _, fun _ => Same.rfl⟩
  cases b with simp only [step] at hs
  | create w => split at hs <;> cases hs; exact hrefl
  | update req => split at hs <;> cases hs <;> exact hrefl
  | delete k => cases hs; exact hrefl
  | suspendAll => cases hs; exact hrefl
  | tick now =>
    split at hs <;> cases hs
    rename_i hle
    exact ⟨hle, fun _ => Same.rfl⟩
  | worker i a => exact absurd rfl (hb i a)
  | rpc i out =>
    split at hs
    · cases hs
    split at hs <;> cases hs
    · refine ⟨Int.le_refl _, fun k => ?_⟩
      by_cases hk : k = i
      · subst hk
        simp only [State.setWorker, Function.update_self]
        exact ⟨rfl, Subset.refl _, rfl⟩
      · simp only [State.setWorker, Function.update_of_ne hk]
        exact Same.rfl
    all_goals exact hrefl
  | late j => split at hs <;> cases hs; exact hrefl

theorem due_later {now' : Time} (hle : now ≤ now')
    (h : (∀ t ∈ w.intake, t.nextAt ≤ now) ∧ ∀ j ∈ w.jobs, waits now j = false) :
    (∀ t ∈ w.intake, t.nextAt ≤ now') ∧ ∀ j ∈ w.jobs, waits now' j = false := by
  refine ⟨fun t ht => Int.le_trans (h.1 t ht) hle, fun j hj => ?_⟩
  have := h.2 j hj
  simp only [waits, decide_eq_false_iff_not, not_and, Int.not_lt] at this ⊢
  exact fun hw => Int.le_trans (this hw) hle

theorem worker_step {i : ω} (hs : step svc cfg s (.worker i a) = some s') :
    ∃ w', (s.workers i).act cfg s.now s.rows a = some w' ∧ s' = s.setWorker i w' := by
  obtain ⟨w', hw, rfl⟩ := Option.map_eq_some_iff.1 hs
  exact ⟨w', hw, rfl⟩

theorem Due.step (h : Due s) (ho : OrderlyStep cfg s b) (hs : step svc cfg s b = some s') : Due s' := by
  intro k
  by_cases hb : ∃ i a, b = .worker i a
  · obtain ⟨i, a, rfl⟩ := hb
    obtain ⟨w', hw, rfl⟩ := worker_step hs
    by_cases hk : k = i
    · subst hk
      have hm := moves_act (h k).1 ho hw
      simp only [State.setWorker, Function.update_self]
      refine ⟨fun t ht => (hm.intake t ht).elim ((h k).1 t) id, fun j hj => (hm.jobs j hj).elim ((h k).2 j) id⟩
    · simp only [State.setWorker, Function.update_of_ne hk]
      exact h k
  · obtain ⟨hle, hsame⟩ := same_of_not_worker (fun i a heq => hb ⟨i, a, heq⟩) hs
    rw [(hsame k).intake, (hsame k).jobs]
    exact due_later hle (h k)

theorem Due.keeps (h : Due s) (ho : OrderlyStep cfg s b) : KeepsDue svc cfg s b where
  kept s' hs k t ht hd := by
    by_cases hb : ∃ i a, b = .worker i a
    · obtain ⟨i, a, rfl⟩ := hb
      obtain ⟨w', hw, rfl⟩ := worker_step hs
      by_cases hk : k = i
      · subst hk
        simp only [State.setWorker, Function.update_self]
        exact ((moves_act (h k).1 ho hw).kept t ht hd).imp_right fun hp => ⟨a, rfl, hp⟩
      · simp only [State.setWorker, Function.update_of_ne hk]
        exact .inl ht
    · exact .inl (((same_of_not_worker (fun i a heq => hb ⟨i, a, heq⟩) hs).2 k).pending ht)
  event s' hs i k hb := by
    subst hb
    obtain ⟨w', hw, rfl⟩ := worker_step hs
    simp only [Worker.act] at hw
    split at hw
    · cases hw
    have hroom : (s.workers i).intake.length < cfg.workerConcurrency * intakeChannelMultiplier := ho
    rw [if_pos hroom] at hw
    cases hw
    simp only [State.setWorker, Function.update_self]
    exact ⟨_, mem_append_right _ (mem_singleton_self _), rfl, rfl⟩

/-- **Waiting workers.** In every orderly run delivery is work-conserving, and no task that is due is thrown away. -/
theorem workConserving_of_orderly (svc : ServiceConfig) (cfg : Config) (now : Time) (acts : List (Act ω)) (s : State ω)
    (ha : Along (step svc cfg) (OrderlyStep cfg) (init now) acts) (hr : run (step svc cfg) (init now) acts = some s) :
    (∀ i, WorkConserving cfg s.now (s.workers i)) ∧ Along (step svc cfg) (KeepsDue svc cfg) (init now) acts := by
  constructor
  · have h := run_invariant_along Due (fun _ _ _ hi ho hs => hi.step ho hs) (due_init now) ha hr
    rintro i ⟨j, hj, hw⟩
    rw [(h i).2 j hj] at hw
    cases hw
  · clear hr
    have h0 := due_init (ω := ω) now
    generalize (init now : State ω) = s₀ at ha h0
    induction acts generalizing s₀ with
    | nil => trivial
    | cons b acts ih =>
      refine ⟨h0.keeps ha.1, ?_⟩
      have htail := ha.2
      cases hs : step svc cfg s₀ b with
      | none => trivial
      | some s₁ =>
        rw [hs] at htail
        exact ih s₁ htail (h0.step ha.1 hs)

end System

def anyService : ServiceConfig := ⟨fun _ => true, some⟩

/-- One delivery worker and room for one retry, in a minute. -/
def oneWorker : Config := ⟨1, 1, [60 * second]⟩

def hook (id : String) : Webhook := ⟨str id, str "t", str "https://a.example", str "*", str "s", .enabled, 3, 0⟩
def setup : List (Act Unit) := [.create (hook "wh_a"), .create (hook "wh_b"), .worker () (.list (str "t")), .worker () (.store (str "t"))]

/-- A delivery that fails and is to be repeated. -/
def failing (id : String) : List (Act Unit) :=
  [.worker () (.event ⟨str id, str "t"⟩), .worker () (.take false), .worker () (.gate 0), .worker () (.result 0 .failure),
    .worker () (.settle 0)]

/-- The five statements of `dropOldest` on a queue of one. -/
def dropping : List (Act Unit) := replicate 5 (.worker () (.drop 0))

/-- Two retries for one place; when the one that is left is due, it is taken. -/
def dueRetry : List (Act Unit) :=
  setup ++ failing "wh_a" ++ failing "wh_b" ++ dropping ++ [.tick (60 * second), .worker () (.take true)]

theorem workConserving_of_orderly_dueRetry : ∃ s, run (step anyService oneWorker) (init 0) dueRetry = some s ∧
    (s.workers ()).jobs = [⟨⟨str "wh_b", str "t", 2, 3, 60 * second⟩, .waiting⟩] ∧ WorkConserving oneWorker s.now (s.workers ()) ∧
    Along (step anyService oneWorker) (KeepsDue anyService oneWorker) (init 0) dueRetry := by
  have h := workConserving_of_orderly anyService oneWorker 0 dueRetry _ (by decide +kernel) rfl
  exact ⟨_, rfl, by decide +kernel, h.1 (), h.2⟩

/-- **Bug**: the only worker waits for a retry of one webhook while a delivery of another one is due; and a retry that is due is
thrown away for one that is not. -/
theorem waiting_delays_others :
    (run (step anyService oneWorker) (init 0) (setup ++ failing "wh_a" ++
      [.worker () (.take true), .worker () (.event ⟨str "wh_b", str "t"⟩)])).map
        (fun s => decide (WorkConserving oneWorker s.now (s.workers ()))) = some false ∧
    (run (step anyService oneWorker) (init 0) (setup ++ failing "wh_a" ++ .tick (60 * second) :: failing "wh_b" ++ dropping)).map
        (fun s => (s.now, (pending (s.workers ())).map fun t => (t.webhookID, t.nextAt))) =
      some (60 * second, [(str "wh_b", 120 * second)]) := by
  decide +kernel

end Sukko.WebhookDelivery.Dispatch
