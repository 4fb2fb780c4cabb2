import Sukko.Webhook.Delivery
/-
# The status that a tenant has set

The `UPDATE` of a status request has no condition on the row. `suspended` lasts as long as no such request is executed: none is
on its way when the tenant's update commits (`Idle`), and every later status check sees it (`GateSees`).
-/

namespace Sukko.WebhookDelivery
open Steps List Function Option
variable {ω : Type} [DecidableEq ω] {status : WebhookStatus} {acts : List (Act ω)}

def Rows.Suspended (rows : Rows) (k : Key) : Prop := ∀ w ∈ rows, w.key = k → w.status = .suspended

instance (rows : Rows) (k : Key) : Decidable (rows.Suspended k) := inferInstanceAs (Decidable (∀ w ∈ rows, _ → _))

/-- The tenant enables the webhook, or registers one under the key. -/
def Enables (k : Key) : Act ω → Prop
  | .create w => w.key = k
  | .update req => req.key = k ∧ req.status = some .enabled
  | _ => False

instance (k : Key) (a : Act ω) : Decidable (Enables k a) :=
  match a with
  | .create w => inferInstanceAs (Decidable (w.key = k))
  | .update req => inferInstanceAs (Decidable (req.key = k ∧ req.status = some .enabled))
  | .delete _ | .suspendAll | .tick _ | .worker _ _ | .rpc _ _ | .late _ => isFalse id

/-- A status request of a worker is executed that puts another status into the row. -/
def Overwrites (k : Key) (s : State ω) : Act ω → Prop
  | .rpc i out => (out = .ok ∨ out = .lost) ∧ ∃ req, (s.workers i).updating = some req ∧ req.key = k ∧
      req.status ≠ .suspended ∧ (updateWebhookStatus s.rows req).isSome
  | .late j => ∃ req, s.orphans[j]? = some req ∧ req.key = k ∧ req.status ≠ .suspended ∧
      (updateWebhookStatus s.rows req).isSome
  | _ => False

/-! ## One write -/

section
variable {rows rows' : Rows} {k k' : Key} {f : Webhook → Webhook} {svc : ServiceConfig}

theorem mem_set (h : rows.set k' f = some rows') {w : Webhook} :
    w ∈ rows' ↔ ∃ v ∈ rows, (if v.key = k' then f v else v) = w := by
  unfold Rows.set at h
  split at h <;> cases h
  exact mem_map

theorem Rows.Suspended.set (hs : rows.Suspended k) (h : rows.set k' f = some rows') (hky : ∀ w, (f w).key = w.key)
    (hf : k' = k → ∀ w, w.status = .suspended → (f w).status = .suspended) : rows'.Suspended k := by
  intro w hw hk
  obtain ⟨v, hv, rfl⟩ := (mem_set h).1 hw
  by_cases hv' : v.key = k'
  · rw [if_pos hv'] at hk ⊢
    rw [hky] at hk
    exact hf (hv'.symm.trans hk) v (hs v hv hk)
  · rw [if_neg hv'] at hk ⊢
    exact hs v hv hk

theorem not_suspended_set (h : rows.set k f = some rows') (hk : ∀ w, (f w).key = w.key)
    (hf : ∀ w, (f w).status = status) (hne : status ≠ .suspended) : ¬rows'.Suspended k := by
  intro hs
  have ha : rows.any (·.key = k) = true := by
    unfold Rows.set at h
    split at h
    · assumption
    · cases h
  obtain ⟨v, hv, hvk⟩ := any_eq_true.1 ha
  have hvk : v.key = k := of_decide_eq_true hvk
  have hw : f v ∈ rows' := (mem_set h).2 ⟨v, hv, by rw [if_pos hvk]⟩
  exact hne ((hf v).symm.trans (hs _ hw ((hk v).trans hvk)))

variable {req : StatusUpdateRequest}

theorem updateWebhookStatus_eq (h : updateWebhookStatus rows req = some rows') :
    rows.set req.key (fun w => { w with status := req.status, retryCount := req.retryCount }) = some rows' := by
  unfold updateWebhookStatus at h
  split at h
  · cases h
  exact h

theorem Rows.Suspended.updateWebhookStatus (hs : rows.Suspended k) (h : updateWebhookStatus rows req = some rows')
    (hr : req.key = k → req.status = .suspended) : rows'.Suspended k :=
  hs.set (updateWebhookStatus_eq h) (fun _ => rfl) fun hk _ _ => hr hk

theorem updateWebhook_eq {req : UpdateWebhookRequest} (h : updateWebhook svc rows req = .ok rows') :
    req.status ≠ some .degraded ∧ ∃ secretEnc, update rows req secretEnc = some rows' := by
  unfold updateWebhook at h
  cases hv : validateUpdate svc req with
  | error e =>
    rw [hv] at h
    cases h
  | ok secretEnc =>
    rw [hv] at h
    dsimp only at h
    have hst : req.status ≠ some .degraded := by
      intro hd
      unfold validateUpdate at hv
      rw [hd] at hv
      simp only [reduceCtorEq, false_and, and_false, if_false, if_true] at hv
      split at hv
      · cases hv
      split at hv <;> cases hv
    cases hu : update rows req secretEnc with
    | none =>
      rw [hu] at h
      cases h
    | some rows'' =>
      rw [hu] at h
      cases h
      exact ⟨hst, secretEnc, hu⟩

theorem Rows.Suspended.updateWebhook (hs : rows.Suspended k) {req : UpdateWebhookRequest}
    (h : updateWebhook svc rows req = .ok rows') (hr : ¬(req.key = k ∧ req.status = some .enabled)) :
    rows'.Suspended k := by
  obtain ⟨hd, secretEnc, hu⟩ := updateWebhook_eq h
  refine hs.set hu (fun _ => rfl) fun hk w hw => ?_
  show req.status.getD w.status = .suspended
  cases hst : req.status with
  | none => exact hw
  | some status =>
    cases status with
    | enabled => exact absurd ⟨hk, hst⟩ hr
    | degraded => exact absurd hst hd
    | suspended => rfl

theorem suspended_of_update {req : UpdateWebhookRequest} (h : updateWebhook svc rows req = .ok rows')
    (hst : req.status = some .suspended) : rows'.Suspended req.key := by
  obtain ⟨-, secretEnc, hu⟩ := updateWebhook_eq h
  intro w hw hk
  obtain ⟨v, hv, rfl⟩ := (mem_set hu).1 hw
  by_cases hvk : v.key = req.key
  · rw [if_pos hvk]
    show req.status.getD v.status = .suspended
    rw [hst]
    rfl
  · rw [if_neg hvk] at hk
    exact absurd hk hvk

end

/-! ## One step -/

section
variable {svc : ServiceConfig} {cfg : Config} {s s' : State ω} {a : Act ω} {k : Key}

theorem suspended_suspendAll {rows : Rows} : (suspendAllForDowngrade rows).Suspended k := by
  intro w hw _
  obtain ⟨v, -, rfl⟩ := mem_map.1 hw
  by_cases hv : v.status = .suspended <;> simp [hv]

theorem rpc_rows {i : ω} {out : RpcOutcome} (h : step svc cfg s (.rpc i out) = some s') :
    ∃ req, (s.workers i).updating = some req ∧ (s'.rows = s.rows ∨
      (out = .ok ∨ out = .lost) ∧ updateWebhookStatus s.rows req = some s'.rows) := by
  simp only [step] at h
  cases hup : (s.workers i).updating with
  | none => simp [hup] at h
  | some req =>
    refine ⟨req, rfl, ?_⟩
    rw [hup] at h
    cases hr : updateWebhookStatus s.rows req with
    | none =>
      cases out <;> simp only [hr, Option.some.injEq] at h <;> subst h <;> exact .inl rfl
    | some rows =>
      cases out <;> simp only [hr, Option.some.injEq] at h <;> subst h
      · exact .inr ⟨.inl rfl, rfl⟩
      · exact .inr ⟨.inr rfl, rfl⟩
      · exact .inl rfl
      · exact .inl rfl

theorem suspended_step (hs : s.rows.Suspended k) (h : step svc cfg s a = some s') (hen : ¬Enables k a)
    (hov : ¬Overwrites k s a) : s'.rows.Suspended k := by
  cases a with
  | create w =>
    simp only [step] at h
    split at h
    · cases h
    · cases h
      exact forall_mem_append.2 ⟨hs, forall_mem_singleton.2 fun hk => absurd hk hen⟩
  | update req =>
    simp only [step] at h
    split at h <;> cases h
    · rename_i rows hu
      exact hs.updateWebhook hu hen
    · exact hs
  | delete k' =>
    cases h
    exact fun w hw hk => hs w (mem_filter.1 hw).1 hk
  | suspendAll =>
    cases h
    exact suspended_suspendAll
  | tick now =>
    simp only [step] at h
    split at h <;> cases h
    exact hs
  | worker i a =>
    obtain ⟨w, -, rfl⟩ := map_eq_some_iff.1 h
    exact hs
  | rpc i out =>
    obtain ⟨req, hup, hr | ⟨ho, hr⟩⟩ := rpc_rows h
    · rw [hr]
      exact hs
    · refine hs.updateWebhookStatus hr fun hk => ?_
      by_contra hne
      exact hov ⟨ho, req, hup, hk, hne, by rw [hr]; rfl⟩
  | late j =>
    simp only [step] at h
    cases hrq : s.orphans[j]? with
    | none => simp [hrq] at h
    | some req =>
      rw [hrq] at h
      cases h
      cases hr : updateWebhookStatus s.rows req with
      | none => exact hs
      | some rows =>
        refine hs.updateWebhookStatus hr fun hk => ?_
        by_contra hne
        exact hov ⟨req, hrq, hk, hne, by rw [hr]; rfl⟩

end

/-! ## A run -/

/-- In every state of the run the row is suspended. -/
def StaysSuspended (svc : ServiceConfig) (cfg : Config) (k : Key) (s : State ω) (acts : List (Act ω)) : Prop :=
  ∀ pre, pre <+: acts → ∀ t, run (step svc cfg) s pre = some t → t.rows.Suspended k

/-! ## Where no request comes from -/

def Stage.open : Stage → Bool
  | .dispatched | .delivered _ => true
  | _ => false

/-- Nothing that the worker has begun can put another status into the row. -/
structure Worker.Idle (k : Key) (w : Worker) : Prop where
  jobs : ∀ j ∈ w.jobs, j.stage.open = true → j.task.key ≠ k
  queued : ∀ req ∈ w.statusUpdates, req.key = k → req.status = .suspended
  updating : ∀ req, w.updating = some req → req.key = k → req.status = .suspended

structure Idle (k : Key) (s : State ω) : Prop where
  workers : ∀ i, (s.workers i).Idle k
  orphans : ∀ req ∈ s.orphans, req.key = k → req.status = .suspended

/-- The status check of a task of the webhook finds it suspended, or does not find it. -/
def Worker.GateSees (k : Key) (w : Worker) : WorkerAct → Prop
  | .gate i => ∀ j ∈ w.jobs[i]?, j.task.key = k → ∀ rec ∈ w.getByID k, rec.status = .suspended
  | _ => True

instance (k : Key) (w : Worker) (a : WorkerAct) : Decidable (w.GateSees k a) :=
  match a with
  | .gate i => inferInstanceAs (Decidable (∀ j ∈ w.jobs[i]?, j.task.key = k → ∀ rec ∈ w.getByID k, rec.status = .suspended))
  | .list _ | .store _ | .seed _ _ | .event _ | .take _ | .result _ _ | .settle _ | .drop _ | .arm | .fire _ | .pick |
    .restart => isTrue trivial

def GateSees (k : Key) (s : State ω) : Act ω → Prop
  | .worker i a => (s.workers i).GateSees k a
  | _ => True

instance (k : Key) (s : State ω) (a : Act ω) : Decidable (GateSees k s a) :=
  match a with
  | .worker i a => inferInstanceAs (Decidable ((s.workers i).GateSees k a))
  | .create _ | .update _ | .delete _ | .suspendAll | .tick _ | .rpc _ _ | .late _ => isTrue trivial

section
variable {k : Key} {w : Worker} {cfg : Config}

theorem Worker.Idle.new : Worker.new.Idle k := ⟨by simp [Worker.new], by simp [Worker.new], by simp [Worker.new]⟩

variable {stage : Stage} {task : DeliveryTask} {w' : Worker}

variable (h : w.Idle k)
include h

theorem Worker.Idle.congr (hj : w'.jobs = w.jobs) (hq : w'.statusUpdates = w.statusUpdates)
    (hup : w'.updating = w.updating) : w'.Idle k :=
  ⟨hj ▸ h.jobs, hq ▸ h.queued, hup ▸ h.updating⟩

theorem Worker.Idle.finish (i : Nat) : (w.finish i).Idle k :=
  ⟨fun j hj => h.jobs j (mem_of_mem_eraseIdx hj), h.queued, h.updating⟩

theorem Worker.Idle.stay (i : Nat) (ho : stage.open = true → task.key ≠ k) : (w.stay i task stage).Idle k := by
  refine ⟨fun j hj hj' => ?_, h.queued, h.updating⟩
  rcases mem_or_eq_of_mem_set hj with hj | rfl
  · exact h.jobs j hj hj'
  · exact ho hj'

theorem Worker.Idle.park (i : Nat) (task : DeliveryTask) (hc : stage.open = false) : (w.stay i task stage).Idle k :=
  h.stay i fun ho => by rw [hc] at ho; cases ho

theorem Worker.Idle.sendStatusUpdate {k' : Key}
    (hst : k' = k → status = .suspended) : (w.sendStatusUpdate cfg k' status).Idle k := by
  unfold Worker.sendStatusUpdate
  split
  · exact ⟨h.jobs, forall_mem_append.2 ⟨h.queued, forall_mem_singleton.2 hst⟩, h.updating⟩
  · exact h

theorem Worker.Idle.sendDegraded {nextAt : Time} (hs : w.sendDegraded cfg task nextAt = some w') : w'.Idle k := by
  unfold Worker.sendDegraded at hs
  split at hs <;> cases hs
  exact h.congr rfl rfl rfl

theorem Worker.Idle.sendRetry (hs : w.sendRetry cfg task = some w') : w'.Idle k := by
  unfold Worker.sendRetry at hs
  split at hs <;> cases hs
  exact h.congr rfl rfl rfl

theorem Worker.Idle.scheduleRetry (now : Time) (i : Nat) (hk : task.key ≠ k) : (w.scheduleRetry cfg now i task).Idle k := by
  unfold Worker.scheduleRetry
  dsimp only
  generalize (if task.attempt ≤ 0 then 1 else task.attempt) = attempt
  split
  · have hsn : (w.sendStatusUpdate cfg task.key .degraded).Idle k := h.sendStatusUpdate fun he => absurd he hk
    split
    · rename_i w' hs
      exact (hsn.sendDegraded hs).finish i
    · exact hsn.park i task rfl
  · split
    · exact h.finish i
    · split
      · rename_i w' hs
        exact (h.sendRetry hs).finish i
      · exact h.park i task rfl

theorem Worker.Idle.dropOldest (i : Nat) (hs : w.dropOldest cfg i task stage = some w') : w'.Idle k := by
  unfold Worker.dropOldest at hs
  split at hs
  · split at hs
    · cases hs
    · cases hs
      exact h.park i task rfl
  · split at hs <;> cases hs
    · rename_i t rest hq
      have hrs : Worker.Idle k { w with retryQueue := rest } := h.congr rfl rfl rfl
      exact hrs.park i task rfl
    · exact h.park i task rfl
  · cases hs
    refine Worker.Idle.park ?_ i task rfl
    rename_i t left
    cases hr : w.sendRetry cfg t with
    | none => exact h
    | some w' => exact h.sendRetry hr
  · cases hs
    exact h.finish i
  · cases hs

theorem Worker.Idle.act {now : Time} {rows : Rows} {a : WorkerAct} (hs : w.act cfg now rows a = some w')
    (hg : w.GateSees k a) : w'.Idle k := by
  cases a with simp only [Worker.act] at hs
  | list tenantID =>
    cases hs
    exact h.congr rfl rfl rfl
  | store tenantID | arm =>
    split at hs <;> cases hs
    exact h.congr rfl rfl rfl
  | seed k' nextAt =>
    split at hs
    · cases hs
    split at hs
    · cases hs
      exact h.congr rfl rfl rfl
    · cases hs
  | event k' =>
    split at hs
    · cases hs
    split at hs <;> cases hs
    · exact h.congr rfl rfl rfl
    · exact h
  | take retry =>
    -- a task that is taken has not been let through yet
    have hw (t : DeliveryTask) : ∀ j ∈ w.jobs ++ [⟨t, .waiting⟩], j.stage.open = true → j.task.key ≠ k := by
      refine forall_mem_append.2 ⟨h.jobs, forall_mem_singleton.2 fun ho => ?_⟩
      cases ho
    split at hs
    · split at hs
      · cases hs
        exact ⟨hw _, h.queued, h.updating⟩
      · cases hs
        exact ⟨hw _, h.queued, h.updating⟩
      · cases hs
    · cases hs
  | gate i =>
    split at hs
    · rename_i task hjb
      split at hs
      · split at hs
        · cases hs
          exact h.finish i
        · rename_i rec hrc
          split at hs <;> cases hs
          · exact h.finish i
          · rename_i hn
            refine h.stay i fun _ hk => ?_
            exact hn (hg _ hjb hk rec (hk ▸ hrc))
      · cases hs
    · cases hs
  | result i label =>
    split at hs
    · rename_i task hjb
      have hk : task.key ≠ k := h.jobs _ (mem_of_getElem? hjb) rfl
      cases hs
      refine Worker.Idle.stay ?_ i fun _ => hk
      split
      · exact h.sendStatusUpdate fun _ => rfl
      · exact h
    · cases hs
  | settle i =>
    split at hs
    · cases hs
      exact h.finish i
    · rename_i task hjb
      have hk : task.key ≠ k := h.jobs _ (mem_of_getElem? hjb) rfl
      split at hs <;> cases hs
      · exact (h.sendStatusUpdate fun he => absurd he hk).finish i
      · exact h.finish i
    · rename_i task label _ _ hjb
      have hk : task.key ≠ k := h.jobs _ (mem_of_getElem? hjb) rfl
      cases hs
      exact h.scheduleRetry now i hk
    · rename_i task hjb
      cases hs
      refine Worker.Idle.finish ?_ i
      cases hd : w.sendDegraded cfg task (now + webhookDegradedQueueFullFallback) with
      | none => exact h
      | some w' => exact h.sendDegraded hd
    · cases hs
  | drop i =>
    split at hs
    · exact h.dropOldest i hs
    · cases hs
  | fire i =>
    split at hs
    · cases hs
    split at hs
    · have hp : Worker.Idle k { w with timers := w.timers.eraseIdx i } := h.congr rfl rfl rfl
      split at hs
      · cases hs
        exact hp
      · split at hs
        · cases hs
          exact hp
        · split at hs
          · rename_i w'' hr
            cases hs
            exact hp.sendRetry hr
          · cases hs
            exact h.congr rfl rfl rfl
    · cases hs
  | pick =>
    split at hs
    · rename_i req rest hup hq
      cases hs
      refine ⟨h.jobs, fun r hr => h.queued r (hq ▸ mem_cons_of_mem req hr), ?_⟩
      intro r hr
      cases hr
      exact h.queued req (hq ▸ mem_cons_self)
    · cases hs
  | restart =>
    cases hs
    exact Worker.Idle.new

end

section
variable {svc : ServiceConfig} {cfg : Config} {s s' : State ω} {a : Act ω} {k : Key}

omit [DecidableEq ω] in
theorem Idle.not_overwrites (h : Idle k s) : ¬Overwrites k s a := by
  cases a with
  | rpc i out =>
    rintro ⟨-, req, hup, hk, hne, -⟩
    exact hne ((h.workers i).updating req hup hk)
  | late j =>
    rintro ⟨req, hr, hk, hne, -⟩
    exact hne (h.orphans req (mem_of_getElem? hr) hk)
  | create w | update req | delete k' | suspendAll | tick now | worker i a => exact id

theorem Idle.setWorker (h : Idle k s) (rows : Rows) (i : ω) {w : Worker} (hw : w.Idle k) :
    Idle k (State.setWorker { s with rows := rows } i w) := by
  refine ⟨fun j => ?_, h.orphans⟩
  show (Function.update s.workers i w j).Idle k
  by_cases hj : j = i
  · subst hj
    rwa [update_self]
  · rw [update_of_ne hj]
    exact h.workers j

theorem Idle.step (h : Idle k s) (hs : step svc cfg s a = some s') (hg : GateSees k s a) : Idle k s' := by
  cases a with simp only [WebhookDelivery.step] at hs
  | create w | tick now =>
    split at hs <;> cases hs
    exact ⟨h.workers, h.orphans⟩
  | update req =>
    split at hs <;> obtain rfl := Option.some.inj hs <;> exact ⟨h.workers, h.orphans⟩
  | delete k' | suspendAll =>
    cases hs
    exact ⟨h.workers, h.orphans⟩
  | worker i a =>
    obtain ⟨w, hw, rfl⟩ := map_eq_some_iff.1 hs
    exact h.setWorker s.rows i ((h.workers i).act hw hg)
  | rpc i out =>
    split at hs
    · cases hs
    rename_i req hup
    split at hs <;> cases hs
    · exact h.setWorker _ i ⟨(h.workers i).jobs, (h.workers i).queued, by simp⟩
    · exact ⟨h.workers, h.orphans⟩
    · exact ⟨h.workers, forall_mem_append.2 ⟨h.orphans, forall_mem_singleton.2 ((h.workers i).updating _ hup)⟩⟩
    · exact h
  | late j =>
    split at hs <;> cases hs
    exact ⟨h.workers, fun r hr => h.orphans r (mem_of_mem_eraseIdx hr)⟩

theorem Idle.staysSuspended (h : Idle k s) (hs : s.rows.Suspended k) (hen : ∀ a ∈ acts, ¬Enables k a)
    (hg : Along (WebhookDelivery.step svc cfg) (GateSees k) s acts) : StaysSuspended svc cfg k s acts := by
  induction acts generalizing s with
  | nil =>
    intro pre hp t ht
    obtain rfl := prefix_nil.1 hp
    cases ht
    exact hs
  | cons a acts ih =>
    intro pre hp t ht
    cases pre with
    | nil =>
      cases ht
      exact hs
    | cons b pre =>
      obtain ⟨rfl, hpre⟩ := cons_prefix_cons.1 hp
      obtain ⟨s', hst, ht⟩ := run_cons.1 ht
      obtain ⟨hsees, hrest⟩ := hg
      rw [hst] at hrest
      have hs' := suspended_step hs hst (hen b mem_cons_self) h.not_overwrites
      exact ih (h.step hst hsees) hs' (fun a ha => hen a (mem_cons_of_mem b ha)) hrest pre hpre t ht

end

/-- **A suspended webhook** stays so until the tenant enables it, if nothing was under way at the commit and every later status
check sees the webhook suspended. -/
theorem suspended_until_enabled {svc : ServiceConfig} {cfg : Config} {s s' : State ω} {req : UpdateWebhookRequest}
    {rows : Rows} (hreq : req.status = some .suspended) (hcommit : updateWebhook svc s.rows req = .ok rows)
    (hs : step svc cfg s (.update req) = some s') {acts : List (Act ω)} (hen : ∀ a ∈ acts, ¬Enables req.key a)
    (hidle : Idle req.key s') (hgate : Along (step svc cfg) (GateSees req.key) s' acts) :
    StaysSuspended svc cfg req.key s' acts := by
  have hrows : s'.rows = rows := by
    simp only [step, hcommit, Option.some.injEq] at hs
    rw [← hs]
  have hsusp : s'.rows.Suspended req.key := hrows ▸ suspended_of_update hcommit hreq
  exact hidle.staysSuspended hsusp hen hgate

/-! ## A webhook with one attempt -/

def demoService : ServiceConfig where
  validateWebhookURL := fun _ => true
  encryptCredential := some

def demoConfig : Config where
  workerConcurrency := 1
  retryQueueSize := 1
  retrySchedule := [second]

def demoKey : Key := ⟨str "wh", str "t"⟩

def demoStart : List (Act Unit) :=
  [.create ⟨str "wh", str "t", [], [], [], .enabled, 1, 0⟩, .worker () (.list (str "t")), .worker () (.store (str "t"))]

def demoSuspend : UpdateWebhookRequest where
  id := str "wh"
  tenantID := str "t"
  url := none
  channelPattern := none
  maxRetries := none
  status := some .suspended
  secret := none

def demoAfter : List (Act Unit) :=
  [.worker () (.list (str "t")), .worker () (.store (str "t")), .worker () (.event demoKey), .worker () (.take false),
    .worker () (.gate 0)]

theorem suspended_until_enabled_demo : ∃ s s' t : State Unit, run (step demoService demoConfig) (init 0) demoStart = some s ∧
    step demoService demoConfig s (.update demoSuspend) = some s' ∧
    run (step demoService demoConfig) s' demoAfter = some t ∧ StaysSuspended demoService demoConfig demoKey s' demoAfter := by
  have hval : ((run (step demoService demoConfig) (init 0) demoStart).bind fun s =>
      (step demoService demoConfig s (.update demoSuspend)).bind fun s' =>
      (run (step demoService demoConfig) s' demoAfter).map fun t =>
        ((updateWebhook demoService s.rows demoSuspend).isOk, decide ((s'.workers ()).jobs = [] ∧
            (s'.workers ()).statusUpdates = [] ∧ (s'.workers ()).updating = none ∧ s'.orphans = []),
          decide (Along (step demoService demoConfig) (GateSees demoKey) s' demoAfter))) = some (true, true, true) := by
    decide +kernel
  obtain ⟨s, hs, hval⟩ := bind_eq_some_iff.1 hval
  obtain ⟨s', hs', hval⟩ := bind_eq_some_iff.1 hval
  obtain ⟨t, ht, hval⟩ := map_eq_some_iff.1 hval
  simp only [Prod.mk.injEq, decide_eq_true_eq] at hval
  obtain ⟨hok, ⟨hjobs, hqueue, hup, horphans⟩, hgate⟩ := hval
  obtain ⟨rows, hcommit⟩ : ∃ rows, updateWebhook demoService s.rows demoSuspend = .ok rows := by
    cases hc : updateWebhook demoService s.rows demoSuspend with
    | ok rows => exact ⟨rows, rfl⟩
    | error e =>
      rw [hc] at hok
      cases hok
  have hidle : Idle demoKey s' := by
    refine ⟨fun _ => ⟨?_, ?_, ?_⟩, ?_⟩
    · rw [hjobs]
      exact fun j hj => absurd hj not_mem_nil
    · rw [hqueue]
      exact fun r hr => absurd hr not_mem_nil
    · rw [hup]
      exact fun r hr => by cases hr
    · rw [horphans]
      exact fun r hr => absurd hr not_mem_nil
  exact ⟨s, s', t, hs, hs', ht, suspended_until_enabled rfl hcommit hs' (by decide) hidle hgate⟩

def demoFailure : List (Act Unit) :=
  [.worker () (.event demoKey), .worker () (.take false), .worker () (.gate 0), .worker () (.result 0 .failure),
    .worker () (.settle 0)]

/-- **Bug**: a request that was queued when the tenant suspended the webhook is executed afterwards. -/
theorem queued_update_resumes : ∃ s s' t : State Unit,
    run (step demoService demoConfig) (init 0) (demoStart ++ demoFailure) = some s ∧
    step demoService demoConfig s (.update demoSuspend) = some s' ∧ s'.rows.map (·.status) = [.suspended] ∧
    run (step demoService demoConfig) s' [.worker () .pick, .rpc () .ok] = some t ∧ t.rows.map (·.status) = [.degraded] ∧
    ¬StaysSuspended demoService demoConfig demoKey s' [.worker () .pick, .rpc () .ok] := by
  have hval : ((run (step demoService demoConfig) (init 0) (demoStart ++ demoFailure)).bind fun s =>
      (step demoService demoConfig s (.update demoSuspend)).bind fun s' =>
      (run (step demoService demoConfig) s' [.worker () .pick, .rpc () .ok]).map fun t =>
        (s'.rows.map (·.status), t.rows.map (·.status), decide (t.rows.Suspended demoKey))) =
      some ([.suspended], [.degraded], false) := by decide +kernel
  obtain ⟨s, hs, hval⟩ := bind_eq_some_iff.1 hval
  obtain ⟨s', hs', hval⟩ := bind_eq_some_iff.1 hval
  obtain ⟨t, ht, hval⟩ := map_eq_some_iff.1 hval
  simp only [Prod.mk.injEq, decide_eq_false_iff_not] at hval
  obtain ⟨hbefore, hafter, hnot⟩ := hval
  exact ⟨s, s', t, hs, hs', hbefore, ht, hafter, fun hstays => hnot (hstays _ (prefix_refl _) t ht)⟩

end Sukko.WebhookDelivery
