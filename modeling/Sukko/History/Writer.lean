import Sukko.Lib.GoString
import Sukko.Lib.Lease
import Sukko.Lib.Steps
/-
# The history writer and its lock

A call is sent, is executed or never is, and returns; nothing bounds the time between, so a command may be executed after its
call has returned an error (`orphans`). Time is in nanoseconds; Valkey counts milliseconds.

**valkey-go boundary**: commands on one key of one client are executed in the order in which they were sent; the `XADD`s of a
batch in any order. Metrics, the `EXPIRE` after each `XADD` and the restart backoff are left out.
-/

namespace Sukko.History
open Lease

/-! ## Configuration -/

structure HistoryConfig where
  historyBufferDepth : Nat
  historyWriterBuffer : Nat
  historyWriterPipelineBatch : Nat
  historyWriterLockTTL : Nat
  historyWriterRestartInitialBackoff : Nat
  historyWriterRestartMaxBackoff : Nat
  historyValkeyCmdTimeout : Nat
  historyMaxConsecutiveLockFailures : Nat
  historyWriterHeartbeatInterval : Nat
deriving DecidableEq

def millisecond : Nat := 1000000
def second : Nat := 1000 * millisecond

/-- The history bounds of `ServerConfig.Validate` (`shared/platform/server_config.go:1116-1159`). -/
structure HistoryConfig.Valid (c : HistoryConfig) : Prop where
  bufferDepth : 1 ≤ c.historyBufferDepth ∧ c.historyBufferDepth ≤ 10000
  writerBuffer : 1 ≤ c.historyWriterBuffer ∧ c.historyWriterBuffer ≤ 50000
  pipelineBatch : 1 ≤ c.historyWriterPipelineBatch ∧ c.historyWriterPipelineBatch ≤ 500
  lockTTL : 1 * second ≤ c.historyWriterLockTTL ∧ c.historyWriterLockTTL ≤ 60 * second
  initialBackoff : 0 < c.historyWriterRestartInitialBackoff ∧
    c.historyWriterRestartInitialBackoff < c.historyWriterRestartMaxBackoff
  maxBackoff : c.historyWriterRestartMaxBackoff ≤ 300 * second
  cmdTimeout : 0 < c.historyValkeyCmdTimeout
  maxFailures : 1 ≤ c.historyMaxConsecutiveLockFailures
  heartbeat : 500 * millisecond ≤ c.historyWriterHeartbeatInterval ∧
    c.historyWriterHeartbeatInterval ≤ c.historyWriterLockTTL / 3

def HistoryConfig.default : HistoryConfig where
  historyBufferDepth := 1000
  historyWriterBuffer := 10000
  historyWriterPipelineBatch := 50
  historyWriterLockTTL := 10 * second
  historyWriterRestartInitialBackoff := 500 * millisecond
  historyWriterRestartMaxBackoff := 30 * second
  historyValkeyCmdTimeout := 2 * second
  historyMaxConsecutiveLockFailures := 3
  historyWriterHeartbeatInterval := 3 * second

theorem HistoryConfig.default_valid : HistoryConfig.default.Valid := by
  constructor <;> decide

def ms (t : Nat) : Nat := t / millisecond

theorem ms_mono {t t' : Nat} (h : t ≤ t') : ms t ≤ ms t' := Nat.div_le_div_right h

def HistoryConfig.lockTTLMs (c : HistoryConfig) : Nat := ms c.historyWriterLockTTL

/-! ## What is written -/

/-- See `server/broadcast/bus.go:96`. -/
structure Message where
  subject : GoStr
  payload : GoStr
  tenantID : GoStr
  pos : GoStr
  mid : GoStr
  channel : GoStr
deriving DecidableEq

structure XAdd where
  key : GoStr
  threshold : Nat
  fields : List (GoStr × GoStr)
deriving DecidableEq

def streamKey (env tenantID channel : GoStr) : GoStr :=
  str "history:" ++ env ++ str ":" ++ tenantID ++ str ":" ++ channel

def xadd (cfg : HistoryConfig) (env : GoStr) (msg : Message) : Option XAdd :=
  if msg.tenantID = [] ∨ msg.subject = [] ∨ msg.channel = [] then none
  else
    some {
      key := streamKey env msg.tenantID msg.channel
      threshold := cfg.historyBufferDepth
      fields :=
        [(str "payload", msg.payload), (str "tenant_id", msg.tenantID), (str "channel", msg.channel),
          (str "subject", msg.subject), (str "coord", if msg.pos ≠ [] then msg.pos else str "auto")] ++
        (if msg.mid ≠ [] then [(str "mid", msg.mid)] else []) }

/-! ## A pod -/

abbrev PodID := GoStr

inductive Site
  | acquire
  | renew
  | reacquire
  | release
deriving DecidableEq

def Site.op : Site → Op
  | .acquire | .reacquire => .acquire
  | .renew => .renew
  | .release => .release

inductive Command
  | sent
  | lost
  | executed (granted : Bool)
deriving DecidableEq

structure Call where
  site : Site
  sentAt : Nat
  command : Command
deriving DecidableEq

inductive Phase
  | stopped
  | calling (c : Call)
  | subscribing
  | looping
  | flushing
deriving DecidableEq

def Phase.relaying : Phase → Bool
  | .looping | .flushing => true
  | .calling c => c.site = .renew ∨ c.site = .reacquire
  | .stopped | .subscribing => false

structure Pod where
  phase : Phase
  isActiveWriter : Bool
  failures : Nat
  workChan : List Message
  notified : Bool
  due : Nat
  ctxDone : Bool
  orphans : List Op
  /-- Not a variable of the source: until when the last granted lock command gives the pod the lock at least, counted from when
  it was sent. -/
  lease : Option Nat
deriving DecidableEq

def Pod.start : Pod where
  phase := .stopped
  isActiveWriter := false
  failures := 0
  workChan := []
  notified := false
  due := 0
  ctxDone := false
  orphans := []
  lease := none

namespace Pod

def call (now : Nat) (site : Site) (v : Pod) : Pod := { v with phase := .calling ⟨site, now, .sent⟩ }

def granted (cfg : HistoryConfig) (sentAt : Nat) (v : Pod) : Pod :=
  { v with isActiveWriter := true, lease := some (ms sentAt + cfg.lockTTLMs) }

def exitRun (now : Nat) (v : Pod) : Pod :=
  if v.isActiveWriter then { v.call now .release with lease := none } else { v with phase := .stopped }

def released (v : Pod) : Pod := { v with phase := .stopped, isActiveWriter := false }

def acquired (cfg : HistoryConfig) (sentAt : Nat) (ok : Bool) (v : Pod) : Pod :=
  let v₁ := { v with phase := .subscribing }
  if ok then v₁.granted cfg sentAt else { v₁ with isActiveWriter := false }

def renewed (cfg : HistoryConfig) (sentAt : Nat) (ok : Bool) (v : Pod) : Pod :=
  let v₁ := { v with failures := 0 }
  if ok then v₁.granted cfg sentAt else { v₁ with isActiveWriter := false }

def reacquired (cfg : HistoryConfig) (sentAt : Nat) (ok : Bool) (v : Pod) : Pod :=
  if ok then { v with failures := 0 }.granted cfg sentAt else v

/-- See `server/history/writer.go:354`. -/
def flushBatch (cfg : HistoryConfig) (env : GoStr) (v : Pod) : Pod × List XAdd :=
  let msgs := v.workChan.take cfg.historyWriterPipelineBatch
  let cmds := if v.isActiveWriter then msgs.filterMap (xadd cfg env) else []
  ({ v with
      workChan := v.workChan.drop cfg.historyWriterPipelineBatch
      phase := if cmds = [] then .looping else .flushing },
    cmds)

def abandon (c : Call) (v : Pod) : Pod :=
  { v with orphans := if c.command = .sent then v.orphans ++ [c.site.op] else v.orphans }

end Pod

/-! ## The pods and Valkey -/

structure Write where
  pod : PodID
  epoch : Nat
  owner : Option PodID
  cmd : XAdd
deriving DecidableEq

structure State where
  now : Nat
  lock : Option (Lock PodID)
  acquirers : List PodID
  air : List (PodID × XAdd)
  writes : List Write
  pods : PodID → Pod

def State.start : State where
  now := 0
  lock := none
  acquirers := []
  air := []
  writes := []
  pods := fun _ => Pod.start

inductive Act
  | advance (d : Nat)
  | shutdown (p : PodID)
  | start (p : PodID)
  | execute (p : PodID)
  | lose (p : PodID)
  | answer (p : PodID)
  | fail (p : PodID)
  | subscribe (p : PodID) (ok : Bool)
  | relay (p : PodID) (msg : Message)
  | tick (p : PodID) (healthy : Bool)
  | notify (p : PodID)
  | done (p : PodID)
  | flushed (p : PodID)
  | land (p : PodID) (cmd : XAdd)
  | loseWrite (p : PodID) (cmd : XAdd)
deriving DecidableEq

namespace State

def setPod (s : State) (p : PodID) (v : Pod) : State := { s with pods := Function.update s.pods p v }

def flush (cfg : HistoryConfig) (env : GoStr) (s : State) (p : PodID) (v : Pod) : State :=
  { s.setPod p (v.flushBatch cfg env).1 with air := s.air ++ (v.flushBatch cfg env).2.map fun cmd => (p, cmd) }

def serve (cfg : HistoryConfig) (s : State) (p : PodID) (op : Op) : State × Bool :=
  let r := exec (ms s.now) cfg.lockTTLMs p op s.lock
  ({ s with
      lock := r.1
      acquirers := if op = .acquire ∧ r.2 = true then s.acquirers ++ [p] else s.acquirers },
    r.2)

def write (s : State) (p : PodID) (cmd : XAdd) : State :=
  { s with
    air := s.air.erase (p, cmd)
    writes := s.writes ++ [⟨p, s.acquirers.length, (read (ms s.now) s.lock).map Lock.owner, cmd⟩] }

end State

def answered (cfg : HistoryConfig) (env : GoStr) (s : State) (p : PodID) (c : Call) (ok : Bool) : State :=
  match c.site with
  | .acquire => s.setPod p ((s.pods p).acquired cfg c.sentAt ok)
  | .renew => s.flush cfg env p ((s.pods p).renewed cfg c.sentAt ok)
  | .reacquire => s.flush cfg env p ((s.pods p).reacquired cfg c.sentAt ok)
  | .release => s.setPod p (s.pods p).released

def lockFailed (cfg : HistoryConfig) (env : GoStr) (s : State) (p : PodID) (v : Pod) : State :=
  if v.ctxDone then s.flush cfg env p v
  else
    let v₁ := { v with failures := v.failures + 1 }
    if cfg.historyMaxConsecutiveLockFailures ≤ v₁.failures then s.setPod p (v₁.exitRun s.now)
    else s.flush cfg env p v₁

def failed (cfg : HistoryConfig) (env : GoStr) (s : State) (p : PodID) (c : Call) : State :=
  let v := (s.pods p).abandon c
  match c.site with
  | .acquire => s.setPod p (v.acquired cfg c.sentAt false)
  | .renew | .reacquire => lockFailed cfg env s p v
  | .release => s.setPod p v.released

def step (cfg : HistoryConfig) (env : GoStr) (s : State) : Act → Option State
  | .advance d => some { s with now := s.now + d }
  | .shutdown p => some (s.setPod p { s.pods p with ctxDone := true })
  | .start p =>
    if (s.pods p).phase = .stopped ∧ (s.pods p).ctxDone = false then some (s.setPod p ((s.pods p).call s.now .acquire))
    else none
  | .execute p =>
    match (s.pods p).orphans, (s.pods p).phase with
    | op :: rest, _ => some ((s.serve cfg p op).1.setPod p { s.pods p with orphans := rest })
    | [], .calling ⟨site, sentAt, .sent⟩ =>
      let r := s.serve cfg p site.op
      some (r.1.setPod p { s.pods p with phase := .calling ⟨site, sentAt, .executed r.2⟩ })
    | [], _ => none
  | .lose p =>
    match (s.pods p).orphans, (s.pods p).phase with
    | _ :: rest, _ => some (s.setPod p { s.pods p with orphans := rest })
    | [], .calling ⟨site, sentAt, .sent⟩ => some (s.setPod p { s.pods p with phase := .calling ⟨site, sentAt, .lost⟩ })
    | [], _ => none
  | .answer p =>
    match (s.pods p).phase with
    | .calling ⟨site, sentAt, .executed ok⟩ => some (answered cfg env s p ⟨site, sentAt, .executed ok⟩ ok)
    | _ => none
  | .fail p =>
    match (s.pods p).phase with
    | .calling c => some (failed cfg env s p c)
    | _ => none
  | .subscribe p ok =>
    if (s.pods p).phase = .subscribing then
      some (s.setPod p
        (if ok then { s.pods p with phase := .looping, failures := 0, due := s.now + cfg.historyWriterHeartbeatInterval }
        -- the deferred function is not yet registered: the pod keeps its flag and its lock
        else { s.pods p with phase := .stopped }))
    else none
  | .relay p msg =>
    if (s.pods p).phase.relaying then
      some (if (s.pods p).workChan.length < cfg.historyWriterBuffer then
          s.setPod p { s.pods p with workChan := (s.pods p).workChan ++ [msg], notified := true }
        else s)
    else none
  | .tick p healthy =>
    if (s.pods p).phase = .looping ∧ (s.pods p).due ≤ s.now then
      let interval := cfg.historyWriterHeartbeatInterval
      let v := { s.pods p with due := (s.pods p).due + interval * ((s.now - (s.pods p).due) / interval + 1) }
      some (s.setPod p
        (if healthy then v.call s.now (if v.isActiveWriter then .renew else .reacquire) else v.exitRun s.now))
    else none
  | .notify p =>
    if (s.pods p).phase = .looping ∧ (s.pods p).notified = true then
      some (s.flush cfg env p { s.pods p with notified := false })
    else none
  | .done p =>
    if (s.pods p).phase = .looping ∧ (s.pods p).ctxDone = true then some (s.setPod p ((s.pods p).exitRun s.now)) else none
  | .flushed p =>
    if (s.pods p).phase = .flushing then some (s.setPod p { s.pods p with phase := .looping }) else none
  | .land p cmd => if (p, cmd) ∈ s.air then some (s.write p cmd) else none
  | .loseWrite p cmd => if (p, cmd) ∈ s.air then some { s with air := s.air.erase (p, cmd) } else none

end Sukko.History
