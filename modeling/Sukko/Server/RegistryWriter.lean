import Sukko.Lib.Decimal
import Sukko.Lib.Json.Decode
import Sukko.Lib.Keyspace
import Sukko.Lib.Steps
/-
# The writer of the connection registry

One command is one step, maps are iterated in any order, timers are choices. Metrics and log lines are left out.

**Valkey boundary**: a command of a pipeline is executed or not, and answers with success only if it was (`Outcome`); what is
executed is executed before the pipeline returns. Keys are not evicted.

**Time boundary**: `rfc3339` is the text of an instant.
-/

namespace Sukko.Registry
open Keyspace

/-! ## Keys -/

def connKey (env connID : GoStr) : GoStr := str "connections:" ++ env ++ str ":" ++ connID
def tenantIdxKey (env tenantID : GoStr) : GoStr := str "conn-idx:" ++ env ++ str ":" ++ tenantID
def apiKeyIdxKey (env tenantID apiKeyID : GoStr) : GoStr :=
  str "conn-idx:" ++ env ++ str ":" ++ tenantID ++ str ":apikey:" ++ apiKeyID
def healthKey (env podID : GoStr) : GoStr := str "conn-health:" ++ env ++ str ":" ++ podID

@[simp] theorem connKey_inj {env c c' : GoStr} : connKey env c = connKey env c' ↔ c = c' := by
  unfold connKey
  exact List.append_right_inj _

theorem connKey_ne {env c : GoStr} {key : GoStr} (h : key.take 5 ≠ str "conne") : connKey env c ≠ key := by
  rintro rfl
  exact h rfl

@[simp] theorem connKey_ne_tenantIdxKey (env c t : GoStr) : connKey env c ≠ tenantIdxKey env t :=
  connKey_ne (by simp [tenantIdxKey, str])

@[simp] theorem connKey_ne_apiKeyIdxKey (env c t k : GoStr) : connKey env c ≠ apiKeyIdxKey env t k :=
  connKey_ne (by simp [apiKeyIdxKey, str])

@[simp] theorem connKey_ne_healthKey (env c p : GoStr) : connKey env c ≠ healthKey env p :=
  connKey_ne (by simp [healthKey, str])

def colon : UInt8 := 58

theorem tenantIdxKey_inj {env t t' : GoStr} : tenantIdxKey env t = tenantIdxKey env t' ↔ t = t' := by
  unfold tenantIdxKey
  exact List.append_right_inj _

theorem tenantIdxKey_ne_apiKeyIdxKey {env t t' k : GoStr} (h : colon ∉ t) : tenantIdxKey env t ≠ apiKeyIdxKey env t' k := by
  intro heq
  simp only [tenantIdxKey, apiKeyIdxKey, List.append_assoc, List.append_right_inj] at heq
  refine h ?_
  rw [heq]
  simp [str, colon]

theorem apiKeyIdxKey_inj {env t t' k k' : GoStr} (h : colon ∉ t) (h' : colon ∉ t') :
    apiKeyIdxKey env t k = apiKeyIdxKey env t' k' ↔ t = t' ∧ k = k' := by
  refine ⟨fun heq => ?_, fun ⟨ht, hk⟩ => by rw [ht, hk]⟩
  simp only [apiKeyIdxKey, List.append_assoc, List.append_right_inj] at heq
  have hcut := congrArg (GoStr.cut · colon) heq
  have hl : str ":apikey:" = colon :: str "apikey:" := rfl
  simp only [hl, List.cons_append, GoStr.cut_append h, GoStr.cut_append h'] at hcut
  obtain ⟨ht, hk⟩ := Prod.mk.inj (Option.some.inj hcut)
  exact ⟨ht, List.append_cancel_left hk⟩

/-! ## Events -/

/-- The settings of the registry, with the bounds that `Validate` enforces on them (`platform/server_config.go:1169`,
`:1175`). -/
structure RegistryConfig (π : Type) where
  environment : GoStr
  podID : π → GoStr
  ttl : Time
  heartbeatInterval : Time
  drainTimeout : Time
  buffer : Nat
  rfc3339 : Time → GoStr
  ttl_min : second ≤ ttl
  heartbeat_min : 5 * second ≤ heartbeatInterval

variable {π : Type}

namespace RegistryConfig
variable (cfg : RegistryConfig π)

def ttlSecs : Int := cfg.ttl / second
def idxTTL : Int := cfg.ttl / second + cfg.heartbeatInterval / second

theorem ttlSecs_pos : 0 < cfg.ttlSecs := Int.le_ediv_of_mul_le (by decide) (by simpa using cfg.ttl_min)

theorem ttlSecs_le_idxTTL : cfg.ttlSecs ≤ cfg.idxTTL := by
  have h : (5 : Int) ≤ cfg.heartbeatInterval / second := Int.le_ediv_of_mul_le (by decide) cfg.heartbeat_min
  exact Int.le_add_of_nonneg_right (Int.le_trans (by decide) h)

end RegistryConfig

inductive EventKind
  | connect
  | disconnect
  | subscribe
  | unsubscribe
deriving DecidableEq

structure RegistryEvent where
  kind : EventKind
  connID : GoStr
  tenantID : GoStr := []
  apiKeyID : GoStr := []
  userID : GoStr := []
  podID : GoStr := []
  shardID : Int := 0
  remoteIP : GoStr := []
  transport : GoStr := []
  connectedAt : Time := 0
  channels : Option (List GoStr) := none
  channelsCapped : Bool := false
deriving DecidableEq

def maxRegistryChannelsPerConnection : Nat := 200

def marshalStrings : Option (List GoStr) → GoStr
  | none => str "null"
  | some xs => (Json.array (xs.map fun x => .str (Json.quote x))).text

def channelFields (ev : RegistryEvent) : Assoc GoStr GoStr :=
  let exceeds := maxRegistryChannelsPerConnection < (ev.channels.getD []).length
  let channels := if exceeds then ev.channels.map (List.take maxRegistryChannelsPerConnection) else ev.channels
  let capped := exceeds || ev.channelsCapped
  [(str "channels", marshalStrings channels), (str "channels_capped", if capped then str "1" else [])]

/-! ## Pipelines -/

structure ConnOwnership where
  tenantID : GoStr
  apiKeyID : GoStr
deriving DecidableEq

abbrev Owned := Assoc GoStr ConnOwnership

variable (cfg : RegistryConfig π)

def connectCmds (ev : RegistryEvent) : List (Cmd GoStr) :=
  let connKey := connKey cfg.environment ev.connID
  let tenantIdx := tenantIdxKey cfg.environment ev.tenantID
  let apiKeyIdx := apiKeyIdxKey cfg.environment ev.tenantID ev.apiKeyID
  [.hset connKey ([(str "tenant_id", ev.tenantID), (str "api_key_id", ev.apiKeyID), (str "user_id", ev.userID),
      (str "pod_id", ev.podID), (str "shard_id", GoStr.formatInt ev.shardID), (str "remote_ip", ev.remoteIP),
      (str "transport", ev.transport), (str "connected_at", cfg.rfc3339 ev.connectedAt)] ++ channelFields ev),
    .expire connKey cfg.ttlSecs, .sadd tenantIdx ev.connID, .expire tenantIdx cfg.ttlSecs] ++
  if ev.apiKeyID ≠ [] then [.sadd apiKeyIdx ev.connID, .expire apiKeyIdx cfg.ttlSecs] else []

def removeCmds (connID : GoStr) (info : ConnOwnership) : List (Cmd GoStr) :=
  [.del (connKey cfg.environment connID), .srem (tenantIdxKey cfg.environment info.tenantID) [connID]] ++
  if info.apiKeyID ≠ [] then [.srem (apiKeyIdxKey cfg.environment info.tenantID info.apiKeyID) [connID]] else []

def flushEvent (owned : Owned) (ev : RegistryEvent) : Owned × List (Cmd GoStr) :=
  match ev.kind with
  | .connect => (Assoc.set owned ev.connID ⟨ev.tenantID, ev.apiKeyID⟩, connectCmds cfg ev)
  | .disconnect =>
    -- the stored values are those of the `SADD`; the event's serve for a connection that is not owned
    let info := (Assoc.get owned ev.connID).getD ⟨ev.tenantID, ev.apiKeyID⟩
    (Assoc.erase owned ev.connID, removeCmds cfg ev.connID info)
  | .subscribe | .unsubscribe =>
    match Assoc.get owned ev.connID with
    | none => (owned, [])
    | some _ => (owned, [.hset (connKey cfg.environment ev.connID) (channelFields ev)])

/-- See `server/registry/writer.go:308`. -/
def flushBatch (owned : Owned) : List RegistryEvent → Owned × List (Cmd GoStr)
  | [] => (owned, [])
  | ev :: batch =>
    let (owned₁, cmds₁) := flushEvent cfg owned ev
    let (owned₂, cmds₂) := flushBatch owned₁ batch
    (owned₂, cmds₁ ++ cmds₂)

/-- Part of `handleHeartbeat` (`server/registry/writer.go:435`). -/
def renewals : List (GoStr × ConnOwnership) → (seen seenAPI : List GoStr) → List (Cmd GoStr)
  | [], _, _ => []
  | (connID, info) :: rest, seen, seenAPI =>
    let tenantIdx := tenantIdxKey cfg.environment info.tenantID
    let apiKeyIdx := apiKeyIdxKey cfg.environment info.tenantID info.apiKeyID
    let conn := Cmd.expire (connKey cfg.environment connID) cfg.ttlSecs
    let tenant := if info.tenantID ∈ seen then [] else [Cmd.expire tenantIdx cfg.idxTTL]
    let apiKey := if info.apiKeyID = [] ∨ apiKeyIdx ∈ seenAPI then [] else [Cmd.expire apiKeyIdx cfg.idxTTL]
    conn :: (tenant ++ apiKey ++ renewals rest (info.tenantID :: seen)
      (if info.apiKeyID = [] then seenAPI else apiKeyIdx :: seenAPI))

def heartbeatCmds (p : π) (now : Time) (order : Owned) (drops : Nat) (adminHealthy : Bool) : List (Cmd GoStr) :=
  let health := healthKey cfg.environment (cfg.podID p)
  renewals cfg order [] [] ++
    [.hset health [(str "drops_since_last_flush", GoStr.formatNat drops), (str "last_heartbeat_at", cfg.rfc3339 now),
      (str "admin_channel_healthy", if adminHealthy then str "true" else [])], .expire health cfg.idxTTL]

/-- Models `Writer.shutdownSweep` (`writer.go:510`). -/
def sweepCmds (order : Owned) : List (Cmd GoStr) := order.flatMap fun e => removeCmds cfg e.1 e.2

/-! ## Writers -/

inductive Job
  | flush
  | flushBeforeHeartbeat
  | heartbeat (began : Time)
  | finalDrainFlush
  | sweep
deriving DecidableEq

inductive Phase
  | running
  | beating
  | pipeline (job : Job) (cmds : List (Cmd GoStr)) (failed : Bool)
  | backoff
  | draining (batch : List RegistryEvent)
  | sweeping
  | stopped
deriving DecidableEq

structure Writer where
  workChan : List RegistryEvent
  batch : List RegistryEvent
  owned : Owned
  pendingDrops : Nat
  cancelled : Bool
  phase : Phase
  lastBeat : Time
deriving DecidableEq

def Writer.new (now : Time) : Writer := ⟨[], [], [], 0, false, .running, now⟩

def Writer.push (w : Writer) (ev : RegistryEvent) : Writer :=
  if w.workChan.length < cfg.buffer then { w with workChan := w.workChan ++ [ev] }
  else { w with pendingDrops := w.pendingDrops + 1 }

def Writer.flush (w : Writer) (job : Job) (batch : List RegistryEvent) : Writer :=
  let (owned, cmds) := flushBatch cfg w.owned batch
  { w with owned := owned, phase := .pipeline job cmds false }

def Writer.fail (w : Writer) : Writer := { w with batch := [], phase := if w.cancelled then .stopped else .backoff }

def Writer.finish (w : Writer) (job : Job) (failed : Bool) : Writer :=
  match job, failed with
  | .flush, false => { w with batch := [], phase := .running }
  | .flushBeforeHeartbeat, false => { w with batch := [], phase := .beating }
  | .heartbeat began, false => { w with phase := .running, lastBeat := began }
  | .flush, true | .flushBeforeHeartbeat, true | .heartbeat _, true => w.fail
  | .finalDrainFlush, _ => { w with phase := .sweeping }
  | .sweep, _ => { w with owned := [], phase := .stopped }

/-! ## The system -/

structure Conn (π : Type) where
  pod : π
  info : ConnOwnership

structure State (π : Type) where
  now : Time
  db : Db GoStr
  writers : π → Writer
  opened : GoStr → Option (Conn π)
  closed : GoStr → Bool

inductive Outcome
  | ok
  | lost
  | unanswered
deriving DecidableEq

inductive Act (π : Type)
  | tick (now : Time)
  | connect (p : π) (ev : RegistryEvent)
  | disconnect (connID : GoStr)
  | subscribe (p : π) (unsubscribe : Bool) (connID : GoStr) (channels : List GoStr) (capped : Bool)
  | receive (p : π)
  | flushTick (p : π)
  | heartbeatTick (p : π)
  | heartbeat (p : π) (order : Owned) (adminHealthy : Bool)
  | exec (p : π) (outcome : Outcome)
  | finish (p : π)
  | restart (p : π)
  | cancel (p : π)
  | shutdown (p : π)
  | drain (p : π)
  | drainTimeout (p : π)
  | sweep (p : π) (order : Owned)
  | stop (p : π)

variable [DecidableEq π]

def State.setWriter (s : State π) (p : π) (w : Writer) : State π := { s with writers := Function.update s.writers p w }

def connectEvent (p : π) (ev : RegistryEvent) : RegistryEvent :=
  { ev with kind := .connect, podID := cfg.podID p, channels := none, channelsCapped := false }

def disconnectEvent (connID : GoStr) (info : ConnOwnership) : RegistryEvent :=
  { kind := .disconnect, connID := connID, tenantID := info.tenantID, apiKeyID := info.apiKeyID }

def subscribeEvent (unsubscribe : Bool) (connID : GoStr) (channels : List GoStr) (capped : Bool) : RegistryEvent :=
  { kind := if unsubscribe then .unsubscribe else .subscribe, connID := connID, channels := some channels,
    channelsCapped := capped }

def step (s : State π) : Act π → Option (State π)
  | .tick now => if s.now ≤ now then some { s with now := now } else none
  | .connect p ev =>
    match s.opened ev.connID with
    | none =>
      some { s.setWriter p ((s.writers p).push cfg (connectEvent cfg p ev)) with
        opened := Function.update s.opened ev.connID (some ⟨p, ev.tenantID, ev.apiKeyID⟩) }
    | some _ => none
  | .disconnect connID =>
    match s.opened connID, s.closed connID with
    | some conn, false =>
      some { s.setWriter conn.pod ((s.writers conn.pod).push cfg (disconnectEvent connID conn.info)) with
        closed := Function.update s.closed connID true }
    | _, _ => none
  | .subscribe p unsubscribe connID channels capped =>
    some (s.setWriter p ((s.writers p).push cfg (subscribeEvent unsubscribe connID channels capped)))
  | .receive p =>
    match (s.writers p).phase, (s.writers p).workChan with
    | .running, ev :: rest => some (s.setWriter p { s.writers p with workChan := rest, batch := (s.writers p).batch ++ [ev] })
    | _, _ => none
  | .flushTick p =>
    match (s.writers p).phase with
    | .running => some (if (s.writers p).batch = [] then s else s.setWriter p ((s.writers p).flush cfg .flush (s.writers p).batch))
    | _ => none
  | .heartbeatTick p =>
    match (s.writers p).phase with
    | .running =>
      some (s.setWriter p (if (s.writers p).batch = [] then { s.writers p with phase := .beating }
        else (s.writers p).flush cfg .flushBeforeHeartbeat (s.writers p).batch))
    | _ => none
  | .heartbeat p order adminHealthy =>
    match (s.writers p).phase with
    | .beating =>
      if order.Perm (s.writers p).owned then
        let cmds := heartbeatCmds cfg p s.now order (s.writers p).pendingDrops adminHealthy
        some (s.setWriter p { s.writers p with pendingDrops := 0, phase := .pipeline (.heartbeat s.now) cmds false })
      else none
    | _ => none
  | .exec p outcome =>
    match (s.writers p).phase with
    | .pipeline job (cmd :: cmds) failed =>
      some { s.setWriter p { s.writers p with phase := .pipeline job cmds (failed || outcome != .ok) } with
        db := if outcome = .lost then s.db else s.db.exec s.now cmd }
    | _ => none
  | .finish p =>
    match (s.writers p).phase with
    | .pipeline job [] failed => some (s.setWriter p ((s.writers p).finish job failed))
    | _ => none
  | .restart p =>
    match (s.writers p).phase, (s.writers p).cancelled with
    | .backoff, false => some (s.setWriter p { s.writers p with phase := .running })
    | _, _ => none
  | .cancel p => some (s.setWriter p { s.writers p with cancelled := true })
  | .shutdown p =>
    match (s.writers p).phase, (s.writers p).cancelled with
    | .running, true =>
      some (s.setWriter p { s.writers p with batch := [], phase := if 0 < cfg.drainTimeout then .draining [] else .sweeping })
    | _, _ => none
  | .drain p =>
    match (s.writers p).phase, (s.writers p).workChan with
    | .draining batch, ev :: rest => some (s.setWriter p { s.writers p with workChan := rest, phase := .draining (batch ++ [ev]) })
    | _, _ => none
  | .drainTimeout p =>
    match (s.writers p).phase with
    | .draining batch =>
      some (s.setWriter p (if batch = [] then { s.writers p with phase := .sweeping }
        else (s.writers p).flush cfg .finalDrainFlush batch))
    | _ => none
  | .sweep p order =>
    match (s.writers p).phase with
    | .sweeping =>
      if order.Perm (s.writers p).owned then
        some (s.setWriter p { s.writers p with
          phase := if order = [] then .stopped else .pipeline .sweep (sweepCmds cfg order) false })
      else none
    | _ => none
  | .stop p =>
    match (s.writers p).phase, (s.writers p).cancelled with
    | .backoff, true => some (s.setWriter p { s.writers p with phase := .stopped })
    | _, _ => none

def init (now : Time) : State π := ⟨now, fun _ => none, fun _ => .new now, fun _ => none, fun _ => false⟩

end Sukko.Registry
