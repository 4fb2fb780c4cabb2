import Sukko.Lib.GoString
import Sukko.Lib.Steps
/-
# Delivery of webhooks and the status of a webhook

A delivery worker puts a request into a channel, and one goroutine repeats each until it is done. The result of a delivery is
arbitrary. What only the HTTP request reads is left out.

**gRPC boundary**: a call does its work and answers, or does its work and the answer is lost, or does nothing; or it fails for
its caller and its work is done later (`orphan`).
-/

namespace Sukko.WebhookDelivery

inductive WebhookStatus
  | enabled
  | degraded
  | suspended
deriving DecidableEq

/-! ## The table -/

structure Webhook where
  id : GoStr
  tenantID : GoStr
  url : GoStr
  channelPattern : GoStr
  secretEnc : GoStr
  status : WebhookStatus
  maxRetries : Int
  retryCount : Int
deriving DecidableEq

structure Key where
  id : GoStr
  tenantID : GoStr
deriving DecidableEq

def Webhook.key (w : Webhook) : Key := ⟨w.id, w.tenantID⟩

abbrev Rows := List Webhook

def Rows.set (rows : Rows) (k : Key) (f : Webhook → Webhook) : Option Rows :=
  if rows.any (·.key = k) then some (rows.map fun w => if w.key = k then f w else w) else none

structure UpdateWebhookRequest where
  id : GoStr
  tenantID : GoStr
  url : Option GoStr
  channelPattern : Option GoStr
  maxRetries : Option Int
  status : Option WebhookStatus
  secret : Option GoStr
deriving DecidableEq

def UpdateWebhookRequest.key (req : UpdateWebhookRequest) : Key := ⟨req.id, req.tenantID⟩

/-- See `provisioning/repository/webhook.go:116`. -/
def update (rows : Rows) (req : UpdateWebhookRequest) (secretEnc : Option GoStr) : Option Rows :=
  rows.set req.key fun w =>
    { w with url := req.url.getD w.url
             channelPattern := req.channelPattern.getD w.channelPattern
             maxRetries := req.maxRetries.getD w.maxRetries
             secretEnc := secretEnc.getD w.secretEnc
             status := req.status.getD w.status
             retryCount := if req.status = some .enabled then 0 else w.retryCount }

structure StatusUpdateRequest where
  webhookID : GoStr
  tenantID : GoStr
  status : WebhookStatus
  retryCount : Int
deriving DecidableEq

def StatusUpdateRequest.key (req : StatusUpdateRequest) : Key := ⟨req.webhookID, req.tenantID⟩

def updateStatus (rows : Rows) (req : StatusUpdateRequest) : Option Rows :=
  rows.set req.key fun w => { w with status := req.status, retryCount := req.retryCount }

def suspendAllForDowngrade (rows : Rows) : Rows :=
  rows.map fun w => if w.status ≠ .suspended then { w with status := .suspended } else w

/-! ## The service -/

structure ServiceConfig where
  validateWebhookURL : GoStr → Bool
  encryptCredential : GoStr → Option GoStr

def maxWebhookMaxRetries : Int := 10

inductive UpdateError
  | noField
  | url
  | maxRetries
  | status
  | secretRequired
  | encrypt
  | notFound
deriving DecidableEq

def validateUpdate (cfg : ServiceConfig) (req : UpdateWebhookRequest) : Except UpdateError (Option GoStr) :=
  if req.url = none ∧ req.channelPattern = none ∧ req.maxRetries = none ∧ req.status = none ∧ req.secret = none then
    .error .noField
  else if req.url.any (!cfg.validateWebhookURL ·) then .error .url
  else if req.maxRetries.any (fun n => decide (n < 1 ∨ maxWebhookMaxRetries < n)) then .error .maxRetries
  else if req.status = some .degraded then .error .status
  else
    match req.secret with
    | none => .ok none
    | some secret =>
      if secret = [] then .error .secretRequired
      else
        match cfg.encryptCredential secret with
        | none => .error .encrypt
        | some secretEnc => .ok (some secretEnc)

/-- See `provisioning/service.go:1983`. -/
def updateWebhook (cfg : ServiceConfig) (rows : Rows) (req : UpdateWebhookRequest) : Except UpdateError Rows :=
  match validateUpdate cfg req with
  | .error e => .error e
  | .ok secretEnc =>
    match update rows req secretEnc with
    | none => .error .notFound
    | some rows => .ok rows

/-- See `provisioning/grpcserver/webhook_worker_server.go:115`. -/
def updateWebhookStatus (rows : Rows) (req : StatusUpdateRequest) : Option Rows :=
  if req.webhookID = [] ∨ req.tenantID = [] then none else updateStatus rows req

/-! ## A worker -/

structure WebhookRecord where
  id : GoStr
  tenantID : GoStr
  status : WebhookStatus
  maxRetries : Int
deriving DecidableEq

def Webhook.record (w : Webhook) : WebhookRecord := ⟨w.id, w.tenantID, w.status, w.maxRetries⟩

def listByTenantForWorker (rows : Rows) (tenantID : GoStr) : List WebhookRecord :=
  (rows.filter (·.tenantID = tenantID)).map Webhook.record

structure DeliveryTask where
  webhookID : GoStr
  tenantID : GoStr
  attempt : Int
  maxRetries : Int
  nextAt : Time
deriving DecidableEq

def DeliveryTask.key (t : DeliveryTask) : Key := ⟨t.webhookID, t.tenantID⟩

structure DegradedEntry where
  webhookID : GoStr
  tenantID : GoStr
  nextAt : Time
deriving DecidableEq

inductive StatusLabel
  | decryptFail
  | ssrfBlocked
  | success
  | failure
  | timeout
deriving DecidableEq

inductive Stage
  | waiting
  | dispatched
  | delivered (label : StatusLabel)
  | fallback
  /-- In `dropOldest`, before `dropMu` is taken, while the queue is drained, and while it is filled again. -/
  | locking (incoming : DeliveryTask)
  | draining (drained : List DeliveryTask) (incoming : DeliveryTask)
  | refilling (left : List DeliveryTask)
deriving DecidableEq

structure Job where
  task : DeliveryTask
  stage : Stage
deriving DecidableEq

structure Config where
  workerConcurrency : Nat
  retryQueueSize : Nat
  retrySchedule : List Time

def intakeChannelMultiplier : Nat := 2

def webhookDegradedRetryInterval : Time := 3600 * second
def webhookDegradedQueueFullFallback : Time := 60 * second

structure Worker where
  records : GoStr → List WebhookRecord
  listed : GoStr → Option (List WebhookRecord)
  intake : List DeliveryTask
  retryQueue : List DeliveryTask
  jobs : List Job
  statusUpdates : List StatusUpdateRequest
  updating : Option StatusUpdateRequest
  degradedCh : List DegradedEntry
  timers : List DegradedEntry

namespace Worker

def new : Worker where
  records := fun _ => []
  listed := fun _ => none
  intake := []
  retryQueue := []
  jobs := []
  statusUpdates := []
  updating := none
  degradedCh := []
  timers := []

def getByID (w : Worker) (k : Key) : Option WebhookRecord := (w.records k.tenantID).find? (·.id = k.id)

/-- See `webhook/worker/runner.go:634`. -/
def sendStatusUpdate (cfg : Config) (w : Worker) (k : Key) (status : WebhookStatus) : Worker :=
  if w.statusUpdates.length < cfg.workerConcurrency then
    { w with statusUpdates := w.statusUpdates ++ [⟨k.id, k.tenantID, status, 0⟩] }
  else w

def retryDelay (cfg : Config) (attempt : Int) : Option Time :=
  cfg.retrySchedule[min (attempt - 1).toNat (cfg.retrySchedule.length - 1)]?

def sendDegraded (cfg : Config) (w : Worker) (task : DeliveryTask) (nextAt : Time) : Option Worker :=
  if w.degradedCh.length < cfg.retryQueueSize then
    some { w with degradedCh := w.degradedCh ++ [⟨task.webhookID, task.tenantID, nextAt⟩] }
  else none

def sendRetry (cfg : Config) (w : Worker) (task : DeliveryTask) : Option Worker :=
  if w.retryQueue.length < cfg.retryQueueSize then some { w with retryQueue := w.retryQueue ++ [task] } else none

def finish (w : Worker) (i : Nat) : Worker := { w with jobs := w.jobs.eraseIdx i }

def stay (w : Worker) (i : Nat) (task : DeliveryTask) (stage : Stage) : Worker :=
  { w with jobs := w.jobs.set i ⟨task, stage⟩ }

/-- See `webhook/worker/runner.go:512`. -/
def scheduleRetry (cfg : Config) (now : Time) (w : Worker) (i : Nat) (task : DeliveryTask) : Worker :=
  let attempt := if task.attempt ≤ 0 then 1 else task.attempt
  if task.maxRetries ≤ attempt then
    let w := w.sendStatusUpdate cfg task.key .degraded
    match w.sendDegraded cfg task (now + webhookDegradedRetryInterval) with
    | some w => w.finish i
    | none => w.stay i task .fallback
  else
    match retryDelay cfg attempt with
    | none => w.finish i
    | some nextDelay =>
      let next := { task with attempt := attempt + 1, nextAt := now + nextDelay }
      match w.sendRetry cfg next with
      | some w => w.finish i
      | none => w.stay i task (.locking next)

def furthest : List DeliveryTask → Nat
  | [] => 0
  | t :: ts =>
    match ts[furthest ts]? with
    | some u => if t.nextAt < u.nextAt then furthest ts + 1 else 0
    | none => 0

/-- See `webhook/worker/runner.go:574`. -/
def dropOldest (cfg : Config) (w : Worker) (i : Nat) (task : DeliveryTask) : Stage → Option Worker
  | .locking incoming =>
    if w.jobs.any (fun j => match j.stage with | .draining _ _ | .refilling _ => true | _ => false) then none
    else some (w.stay i task (.draining [] incoming))
  | .draining drained incoming =>
    match w.retryQueue with
    | t :: rest => some (Worker.stay { w with retryQueue := rest } i task (.draining (drained ++ [t]) incoming))
    | [] => some (w.stay i task (.refilling (drained.eraseIdx (furthest drained) ++ [incoming])))
  | .refilling (t :: left) => some (((w.sendRetry cfg t).getD w).stay i task (.refilling left))
  | .refilling [] => some (w.finish i)
  | _ => none

end Worker

inductive WorkerAct
  | list (tenantID : GoStr)
  | store (tenantID : GoStr)
  | seed (k : Key) (nextAt : Time)
  | event (k : Key)
  | take (retry : Bool)
  | gate (i : Nat)
  | result (i : Nat) (label : StatusLabel)
  | settle (i : Nat)
  | drop (i : Nat)
  | arm
  | fire (i : Nat)
  | pick
  | restart
deriving DecidableEq

def Worker.act (cfg : Config) (now : Time) (rows : Rows) (w : Worker) : WorkerAct → Option Worker
  | .list tenantID =>
    some { w with listed := Function.update w.listed tenantID (some (listByTenantForWorker rows tenantID)) }
  | .store tenantID =>
    match w.listed tenantID with
    | none => none
    | some recs => some { w with records := Function.update w.records tenantID recs
                                 listed := Function.update w.listed tenantID none }
  | .seed k nextAt =>
    match w.getByID k with
    | none => none
    | some rec => if rec.status = .degraded then some { w with timers := w.timers ++ [⟨k.id, k.tenantID, nextAt⟩] } else none
  | .event k =>
    match w.getByID k with
    | none => none
    | some rec =>
      if w.intake.length < cfg.workerConcurrency * intakeChannelMultiplier then
        some { w with intake := w.intake ++ [⟨k.id, k.tenantID, 1, rec.maxRetries, now⟩] }
      else some w
  | .take retry =>
    if w.jobs.length < cfg.workerConcurrency then
      match retry, w.retryQueue, w.intake with
      | true, t :: rest, _ => some { w with retryQueue := rest, jobs := w.jobs ++ [⟨t, .waiting⟩] }
      | false, _, t :: rest => some { w with intake := rest, jobs := w.jobs ++ [⟨t, .waiting⟩] }
      | _, _, _ => none
    else none
  | .gate i =>
    match w.jobs[i]? with
    | some ⟨task, .waiting⟩ =>
      if task.nextAt ≤ now then
        match w.getByID task.key with
        | none => some (w.finish i)
        | some rec => if rec.status = .suspended then some (w.finish i) else some (w.stay i task .dispatched)
      else none
    | _ => none
  | .result i label =>
    match w.jobs[i]? with
    | some ⟨task, .dispatched⟩ =>
      let w := if label = .decryptFail then w.sendStatusUpdate cfg task.key .suspended else w
      some (w.stay i task (.delivered label))
    | _ => none
  | .settle i =>
    match w.jobs[i]? with
    | some ⟨_, .delivered .decryptFail⟩ => some (w.finish i)
    | some ⟨task, .delivered .success⟩ =>
      -- recovery: a degraded webhook becomes enabled
      if (w.getByID task.key).any (·.status = .degraded) then some ((w.sendStatusUpdate cfg task.key .enabled).finish i)
      else some (w.finish i)
    | some ⟨task, .delivered _⟩ => some (w.scheduleRetry cfg now i task)
    | some ⟨task, .fallback⟩ =>
      some (((w.sendDegraded cfg task (now + webhookDegradedQueueFullFallback)).getD w).finish i)
    | _ => none
  | .drop i =>
    match w.jobs[i]? with
    | some ⟨task, stage⟩ => w.dropOldest cfg i task stage
    | none => none
  | .arm =>
    match w.degradedCh with
    | [] => none
    | e :: rest => some { w with degradedCh := rest, timers := w.timers ++ [e] }
  | .fire i =>
    match w.timers[i]? with
    | none => none
    | some e =>
      if e.nextAt ≤ now ∧ w.timers.all (fun e' => decide (e.nextAt ≤ e'.nextAt)) then
        let w := { w with timers := w.timers.eraseIdx i }
        match w.getByID ⟨e.webhookID, e.tenantID⟩ with
        | none => some w
        | some rec =>
          if rec.status ≠ .degraded then some w
          else
            match w.sendRetry cfg ⟨e.webhookID, e.tenantID, 1, rec.maxRetries, now⟩ with
            | some w => some w
            | none => some { w with timers := w.timers ++ [{ e with nextAt := now + webhookDegradedQueueFullFallback }] }
      else none
  | .pick =>
    match w.updating, w.statusUpdates with
    | none, req :: rest => some { w with statusUpdates := rest, updating := some req }
    | _, _ => none
  | .restart => some Worker.new

/-! ## The system -/

section
variable (ω : Type) [DecidableEq ω]

structure State where
  now : Time
  rows : Rows
  workers : ω → Worker
  orphans : List StatusUpdateRequest

inductive RpcOutcome
  | ok
  | lost
  | failed
  | orphan
deriving DecidableEq

inductive Act
  | create (w : Webhook)
  | update (req : UpdateWebhookRequest)
  | delete (k : Key)
  | suspendAll
  | tick (now : Time)
  | worker (i : ω) (a : WorkerAct)
  | rpc (i : ω) (out : RpcOutcome)
  | late (j : Nat)
deriving DecidableEq

end

variable {ω : Type} [DecidableEq ω]

def init (now : Time) : State ω where
  now := now
  rows := []
  workers := fun _ => Worker.new
  orphans := []

def State.setWorker (s : State ω) (i : ω) (w : Worker) : State ω := { s with workers := Function.update s.workers i w }

def step (svc : ServiceConfig) (cfg : Config) (s : State ω) : Act ω → Option (State ω)
  | .create w => if s.rows.any (·.id = w.id) then none else some { s with rows := s.rows ++ [{ w with status := .enabled }] }
  | .update req =>
    match updateWebhook svc s.rows req with
    | .ok rows => some { s with rows := rows }
    | .error _ => some s
  | .delete k => some { s with rows := s.rows.filter (·.key ≠ k) }
  | .suspendAll => some { s with rows := suspendAllForDowngrade s.rows }
  | .tick now => if s.now ≤ now then some { s with now := now } else none
  | .worker i a => ((s.workers i).act cfg s.now s.rows a).map (s.setWorker i)
  | .rpc i out =>
    match (s.workers i).updating with
    | none => none
    | some req =>
      match out, updateWebhookStatus s.rows req with
      | .ok, some rows => some (State.setWorker { s with rows := rows } i { s.workers i with updating := none })
      | .lost, some rows => some { s with rows := rows }
      | .orphan, _ => some { s with orphans := s.orphans ++ [req] }
      -- an error is answered, or there is no answer: the call is repeated
      | _, _ => some s
  | .late j =>
    match s.orphans[j]? with
    | none => none
    | some req => some { s with rows := (updateWebhookStatus s.rows req).getD s.rows, orphans := s.orphans.eraseIdx j }

end Sukko.WebhookDelivery
