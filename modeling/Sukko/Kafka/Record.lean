import Sukko.Lib.GoString
/-
# Kafka records, the channel of a record, and what a consumer has done with it

**franz-go boundary**: the client hands out the records of a partition in offset order (`InOrder`) and commits cumulatively up
to the highest marked offset. Waiting times, metrics and log lines are left out.
-/

namespace Sukko.Kafka
open List

structure Header where
  key : GoStr
  value : Option GoStr
deriving DecidableEq

structure Record where
  topic : GoStr
  partition : Int
  offset : Int
  key : GoStr
  value : GoStr
  headers : List Header
deriving DecidableEq

def Record.SamePartition (a b : Record) : Prop := a.topic = b.topic ∧ a.partition = b.partition

instance (a b : Record) : Decidable (a.SamePartition b) :=
  inferInstanceAs (Decidable (_ ∧ _))

theorem Record.SamePartition.symm {a b : Record} (h : a.SamePartition b) : b.SamePartition a := ⟨h.1.symm, h.2.symm⟩

/-- The drop reasons of `server/kafka/constants.go:38-45`. -/
inductive Reason
  | missingChannelHeader
  | tenantPrefixMismatch
  | invalidChannelKey
  | unknownTopic
deriving DecidableEq

def Reason.text : Reason → GoStr
  | .missingChannelHeader => str "missing_channel_header"
  | .tenantPrefixMismatch => str "tenant_prefix_mismatch"
  | .invalidChannelKey => str "invalid_channel_key"
  | .unknownTopic => str "unknown_topic"

def headerChannel : GoStr := str "x-sukko-channel"
/-- `HeaderReason` (`constants.go:7`). -/
def headerReason : GoStr := str "x-sukko-reason"

/-- See `server/kafka/consumer.go:1234`. -/
def findHeader : List Header → GoStr → Option GoStr
  | [], _ => none
  | h :: hs, key => if h.key = key then h.value else findHeader hs key

abbrev Resolver := Option (GoStr → Option GoStr)

/-- See `server/kafka/consumer.go:1251`. -/
def extractChannel (tenantResolver : Resolver) (r : Record) : GoStr × Option Reason × GoStr :=
  match tenantResolver.bind (· r.topic) with
  | none => ([], some .unknownTopic, [])
  | some tenant =>
    match findHeader r.headers headerChannel with
    | none => ([], some .missingChannelHeader, tenant)
    | some ch =>
      match ch.indexByte GoStr.dot with
      | none | some 0 => ([], some .invalidChannelKey, tenant)
      | some dot =>
        if ch.take dot ≠ tenant then ([], some .tenantPrefixMismatch, tenant)
        else (ch, none, tenant)

structure DLQJob where
  record : Record
  tenant : GoStr
  reason : Reason
deriving DecidableEq

structure Config where
  namespc : GoStr
  hasDLQ : Bool
  batchSize : Nat
deriving DecidableEq

def buildTopicName (namespc tenant suffix : GoStr) : GoStr :=
  namespc ++ GoStr.dot :: tenant ++ GoStr.dot :: suffix

/-- See `server/kafka/consumer.go:1212`. -/
def routeToDLQ (cfg : Config) (r : Record) (tenant : GoStr) (reason : Reason) : Option DLQJob :=
  if cfg.hasDLQ then
    some { record := { topic := buildTopicName cfg.namespc tenant (str "dead-letter")
                       partition := 0, offset := 0, key := r.key, value := r.value
                       headers := r.headers ++ [⟨headerReason, some reason.text⟩] }
           tenant, reason }
  else none

inductive Event
  | broadcast (subject : GoStr) (r : Record)
  /-- A deliberate drop: `extractChannel` gave a reason other than an unknown topic and the record
  went through `routeToDLQ`. -/
  | routedToDLQ (r : Record) (reason : Reason) (job : Option DLQJob)
  | registryMiss (r : Record)
  | marked (r : Record)
deriving DecidableEq

def Settled (hist : List Event) (r : Record) : Prop :=
  (∃ subject, .broadcast subject r ∈ hist) ∨ (∃ reason job, .routedToDLQ r reason job ∈ hist) ∨
    .registryMiss r ∈ hist

theorem Settled.append {hist : List Event} {r : Record} (h : Settled hist r) (es : List Event) : Settled (hist ++ es) r := by
  obtain ⟨c, h⟩ | ⟨reason, job, h⟩ | h := h
  · exact .inl ⟨c, mem_append_left _ h⟩
  · exact .inr (.inl ⟨reason, job, mem_append_left _ h⟩)
  · exact .inr (.inr (mem_append_left _ h))

theorem settled_broadcast (hist : List Event) (subject : GoStr) (r : Record) : Settled (hist ++ [.broadcast subject r]) r :=
  .inl ⟨subject, by simp⟩

theorem settled_routedToDLQ (hist : List Event) (r : Record) (reason : Reason) (job : Option DLQJob) :
    Settled (hist ++ [.routedToDLQ r reason job]) r :=
  .inr (.inl ⟨reason, job, by simp⟩)

theorem settled_registryMiss (hist : List Event) (r : Record) : Settled (hist ++ [.registryMiss r]) r := .inr (.inr (by simp))

/-- **At least once**: every record below the highest offset marked on its partition is settled. -/
def AtLeastOnce (log : List Record) (hist : List Event) : Prop :=
  ∀ m, .marked m ∈ hist → ∀ r ∈ log, r.SamePartition m → r.offset < m.offset → Settled hist r

/-- A partition's records come in offset order. -/
def InOrder (log : List Record) : Prop :=
  log.Pairwise fun a b => a.SamePartition b → a.offset < b.offset

instance (log : List Record) : Decidable (InOrder log) :=
  inferInstanceAs (Decidable (log.Pairwise _))

theorem InOrder.mem_of_lt {read rest : List Record} (h : InOrder (read ++ rest)) {m r : Record}
    (hm : m ∈ read) (hr : r ∈ read ++ rest) (hp : r.SamePartition m) (hlt : r.offset < m.offset) :
    r ∈ read := by
  rcases mem_append.1 hr with hr | hr
  · exact hr
  · have := (pairwise_append.1 h).2.2 m hm r hr hp.symm
    omega

def acmeTopic : GoStr := str "prod.acme.default"

def acmeRecord (offset : Int) (channel : GoStr) : Record :=
  ⟨acmeTopic, 0, offset, [], [], [⟨headerChannel, some channel⟩]⟩

/-! ## The bounded blocks before a record is looked at -/

/-- Models `paceKafkaRate` (`consumer.go:876`) and the CPU brake of `prepareMessage` / `processRecord`. -/
inductive Gate
  | pace
  | paceWait
  | brake
  | brakeLoop
  | brakeWait
deriving DecidableEq

inductive GateAct
  | allow (b : Bool)
  | pause (b : Bool)
  | ctxDone
  | timer
deriving DecidableEq

inductive GateOut
  | still (g : Gate)
  | admitted
  | abandoned
deriving DecidableEq

def Gate.step (cancelled : Bool) : Gate → GateAct → Option GateOut
  | .pace, .allow true => some (.still .brake)
  | .pace, .allow false => some (.still .paceWait)
  | .paceWait, .ctxDone => if cancelled then some .abandoned else none
  | .paceWait, .timer => some (.still .pace)
  | .brake, .pause true => some (.still .brakeLoop)
  | .brake, .pause false => some .admitted
  | .brakeLoop, .pause true => some (.still .brakeWait)
  | .brakeLoop, .pause false => some .admitted
  | .brakeWait, .ctxDone => if cancelled then some .abandoned else none
  | .brakeWait, .timer => some (.still .brakeLoop)
  | _, _ => none

theorem Gate.cancelled_of_abandoned {cancelled : Bool} {g : Gate} {a : GateAct}
    (h : g.step cancelled a = some .abandoned) : cancelled = true := by
  cases g <;> cases a <;> simp_all [Gate.step] <;> split at h <;> simp_all

/-! ## Broadcasting one record until the bus takes it -/

/-- Models `broadcastWithRetry` (`consumer.go:1027`). -/
inductive Retry
  | send
  | backoff
deriving DecidableEq

inductive RetryAct
  | bus (ok : Bool)
  | ctxDone
  | timer
deriving DecidableEq

inductive RetryOut
  | still (t : Retry)
  | delivered
  | abandoned
deriving DecidableEq

def Retry.step (cancelled : Bool) : Retry → RetryAct → Option RetryOut
  | .send, .bus true => some .delivered
  | .send, .bus false => some (.still .backoff)
  | .backoff, .ctxDone => if cancelled then some .abandoned else none
  | .backoff, .timer => some (.still .send)
  | _, _ => none

end Sukko.Kafka
