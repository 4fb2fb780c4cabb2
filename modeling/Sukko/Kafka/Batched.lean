import Sukko.Kafka.Record
import Sukko.Lib.Steps
/-
# The batched consume loop

`consumeLoop` with batching enabled (`server/kafka/consumer.go:670`). `deliverBatch` marks a record after its broadcast; the
loop marks a dropped record inline, without looking at the batch.
-/

namespace Sukko.Kafka.Batched
open Steps List

structure Prepared where
  topic : GoStr
  subject : GoStr
  message : GoStr
  record : Record
deriving DecidableEq

inductive Poller
  | running (fetch : List Record)
  | returned (unsent : List Record)
deriving DecidableEq

def Poller.held : Poller → List Record
  | .running fetch => fetch
  | .returned unsent => unsent

inductive After
  | resume
  | finish
deriving DecidableEq

inductive Pc
  | select
  | gate (g : Gate) (r : Record)
  | extract (r : Record)
  | noMark (r : Record)
  | dropMark (r : Record)
  | deliver (t : Retry) (msg : Prepared) (todo : List Prepared) (k : After)
  | mark (msg : Prepared) (todo : List Prepared) (k : After)
  | stopped
deriving DecidableEq

structure State where
  pc : Pc
  cancelled : Bool
  poller : Poller
  recordCh : List Record
  batch : List Prepared
  pending : List Record
  hist : List Event
deriving DecidableEq

def init (log : List Record) : State := ⟨.select, false, .running [], [], [], log, []⟩

inductive Act
  | cancel
  | pollFetches (n : Nat)
  | pollerSend
  | pollerDone
  | ctxDone
  | flushTimer
  | recv
  | gate (a : GateAct)
  | extract (tenantResolver : Resolver)
  | checkErr
  | dropMark
  | deliver (a : RetryAct)
  | mark

def After.pc : After → Pc
  | .resume => .select
  | .finish => .stopped

/-- `flushBatch` up to its first broadcast. The source clears `batch` when `deliverBatch` returns,
with either result; nothing reads it in between. -/
def flushBatch (s : State) (k : After) : State :=
  match s.batch with
  | [] => { s with pc := k.pc }
  | msg :: todo => { s with pc := .deliver .send msg todo k, batch := [] }

def afterGate (s : State) (r : Record) : GateOut → State
  | .still g => { s with pc := .gate g r }
  | .admitted => { s with pc := .extract r }
  | .abandoned => { s with pc := .noMark r }

def appendBatch (cfg : Config) (s : State) (msg : Prepared) : State :=
  let s := { s with pc := .select, batch := s.batch ++ [msg] }
  if s.batch.length ≥ cfg.batchSize then flushBatch s .resume else s

def afterExtract (cfg : Config) (s : State) (r : Record) : GoStr × Option Reason × GoStr → State
  | (channel, none, _) => appendBatch cfg s ⟨r.topic, channel, r.value, r⟩
  | (_, some .unknownTopic, _) => { s with pc := .noMark r, hist := s.hist ++ [.registryMiss r] }
  | (_, some reason, tenant) =>
    { s with pc := .dropMark r
             hist := s.hist ++ [.routedToDLQ r reason (routeToDLQ cfg r tenant reason)] }

def afterRetry (s : State) (msg : Prepared) (todo : List Prepared) (k : After) : RetryOut → State
  | .still t => { s with pc := .deliver t msg todo k }
  | .delivered => { s with pc := .mark msg todo k, hist := s.hist ++ [.broadcast msg.subject msg.record] }
  | .abandoned => { s with pc := .stopped }

def nextDelivery (todo : List Prepared) (k : After) : Pc :=
  match todo with
  | [] => k.pc
  | msg :: todo => .deliver .send msg todo k

def step (cfg : Config) (s : State) : Act → Option State
  | .cancel => some { s with cancelled := true }
  | .pollFetches n =>
    match s.poller with
    | .running [] =>
      let fetch := s.pending.take n
      some { s with poller := if s.cancelled then .returned fetch else .running fetch
                    pending := s.pending.drop n }
    | _ => none
  | .pollerSend =>
    match s.poller with
    | .running (r :: fetch) =>
      if s.recordCh.length < cfg.batchSize then
        some { s with poller := .running fetch, recordCh := s.recordCh ++ [r] }
      else none
    | _ => none
  | .pollerDone =>
    match s.poller with
    | .running (r :: fetch) =>
      if s.cancelled then some { s with poller := .returned (r :: fetch) } else none
    | _ => none
  | .ctxDone =>
    match s.pc with
    | .select => if s.cancelled then some (flushBatch s .finish) else none
    | _ => none
  | .flushTimer =>
    match s.pc with
    | .select => some (flushBatch s .resume)
    | _ => none
  | .recv =>
    match s.pc, s.recordCh with
    | .select, r :: rest => some { s with pc := .gate .pace r, recordCh := rest }
    | _, _ => none
  | .gate a =>
    match s.pc with
    | .gate g r => (g.step s.cancelled a).map (afterGate s r)
    | _ => none
  | .extract tenantResolver =>
    match s.pc with
    | .extract r => some (afterExtract cfg s r (extractChannel tenantResolver r))
    | _ => none
  | .checkErr =>
    match s.pc with
    | .noMark _ => some (if s.cancelled then flushBatch s .finish else { s with pc := .select })
    | _ => none
  | .dropMark =>
    match s.pc with
    | .dropMark r => some { s with pc := .select, hist := s.hist ++ [.marked r] }
    | _ => none
  | .deliver a =>
    match s.pc with
    | .deliver t msg todo k => (t.step s.cancelled a).map (afterRetry s msg todo k)
    | _ => none
  | .mark =>
    match s.pc with
    | .mark msg todo k =>
      some { s with pc := nextDelivery todo k, hist := s.hist ++ [.marked msg.record] }
    | _ => none

/-! ## What a run keeps -/

def Pc.current : Pc → List Record
  | .gate _ r | .extract r | .noMark r | .dropMark r => [r]
  | _ => []

def Pc.unmarked : Pc → List Prepared
  | .deliver _ msg todo _ | .mark msg todo _ => msg :: todo
  | _ => []

@[simp] theorem After.pc_unmarked (k : After) : k.pc.unmarked = [] := by cases k <;> rfl

def Pc.live : Pc → Bool
  | .deliver _ _ _ .finish | .mark _ _ .finish | .stopped => false
  | _ => true

def State.waiting (s : State) : List Record := (s.pc.unmarked ++ s.batch).map (·.record)

def State.ahead (s : State) : List Record :=
  s.pc.current ++ s.recordCh ++ s.poller.held ++ s.pending

def Ready (s : State) : Prop :=
  match s.pc with
  | .mark msg _ _ => Settled s.hist msg.record
  | .dropMark r => Settled s.hist r
  | .noMark r => Settled s.hist r ∨ s.cancelled = true
  | _ => True

/-- The log is a prepared part `seen` followed by `rest`. A prepared record is settled or waits; below a mark everything prepared
is settled. -/
structure Inv (log : List Record) (s : State) (seen rest : List Record) : Prop where
  split : log = seen ++ rest
  ahead : s.pc.live → rest = s.ahead
  queue : s.pc ≠ .stopped → s.waiting.Sublist seen
  settled : s.pc ≠ .stopped → ∀ r ∈ seen, Settled s.hist r ∨ r ∈ s.waiting
  marked : ∀ m, .marked m ∈ s.hist →
    m ∈ seen ∧ ∀ r ∈ seen, r.SamePartition m → r.offset < m.offset → Settled s.hist r
  ready : Ready s

theorem inv_init (log : List Record) : Inv log (init log) [] log where
  split := rfl
  ahead _ := rfl
  queue _ := List.Sublist.slnil
  settled _ _ h := by cases h
  marked _ h := by cases h
  ready := trivial

variable {log rest seen : List Record} {s s' : State} {es : List Event} {k : After}

theorem Inv.quiet (h : Inv log s seen rest) (hist : s'.hist = s.hist ++ es) (hes : ∀ m, .marked m ∉ es)
    (hlv : s'.pc.live → s.pc.live ∧ s'.ahead = s.ahead)
    (hw : s'.pc ≠ .stopped → s.pc ≠ .stopped ∧ s'.waiting = s.waiting) (hrd : Ready s') : Inv log s' seen rest where
  split := h.split
  ahead hl := by rw [(hlv hl).2]; exact h.ahead (hlv hl).1
  queue hp := by rw [(hw hp).2]; exact h.queue (hw hp).1
  settled hp r hr := by
    rw [(hw hp).2, hist]
    exact (h.settled (hw hp).1 r hr).imp_left (·.append es)
  marked m hm := by
    rw [hist, mem_append] at hm
    obtain ⟨hs, hb⟩ := h.marked m (hm.resolve_right (hes m))
    exact ⟨hs, fun r hr hp hlt => hist ▸ (hb r hr hp hlt).append es⟩
  ready := hrd

theorem Inv.silent (h : Inv log s seen rest) (hist : s'.hist = s.hist) (hl : s'.pc.live → s.pc.live ∧ s'.ahead = s.ahead)
    (hw : s'.pc ≠ .stopped → s.pc ≠ .stopped ∧ s'.waiting = s.waiting) (hr : Ready s') : Inv log s' seen rest :=
  h.quiet (by rw [hist, append_nil]) (by simp) hl hw hr

theorem not_below_of_inOrder {r m : Record} (hl : InOrder (seen ++ r :: rest)) (hm : m ∈ seen) (hp : r.SamePartition m) :
    ¬ r.offset < m.offset := by
  have := (pairwise_append.1 hl).2.2 m hm r (by simp) hp.symm
  omega

theorem Inv.prepared {r : Record} (hlg : InOrder log) (h : Inv log s seen rest) {w : List Record}
    (hist : s'.hist = s.hist ++ es) (hl : s.pc.live) (ha : s.ahead = r :: s'.ahead) (hpc : s'.pc = .select)
    (hwt : s'.waiting = s.waiting ++ w) (hw : w = [r] ∨ w = [] ∧ Settled s'.hist r)
    (hes : ∀ m, .marked m ∈ es → m = r ∧ ∀ x ∈ s.waiting, ¬ x.SamePartition r) : Inv log s' (seen ++ [r]) s'.ahead := by
  have hst : s.pc ≠ .stopped := by intro hs; simp [hs, Pc.live] at hl
  have hsp : log = seen ++ r :: s'.ahead := by rw [h.split, h.ahead hl, ha]
  have hsb : w.Sublist [r] := by rcases hw with rfl | ⟨rfl, -⟩ <;> simp
  refine ⟨by simp [hsp], fun _ => rfl, fun _ => ?_, fun _ x hx => ?_, fun m hm => ?_, ?_⟩
  · rw [hwt]
    exact (h.queue hst).append hsb
  · rw [hwt, mem_append]
    rcases mem_append.1 hx with hx | hx
    · exact (h.settled hst x hx).imp (fun hs => hist ▸ hs.append es) Or.inl
    · rw [mem_singleton.1 hx]
      rcases hw with rfl | ⟨-, hs⟩
      · exact .inr (.inr (by simp))
      · exact .inl hs
  · rw [hist, mem_append] at hm
    rcases hm with hm | hm
    · obtain ⟨hsn, hb⟩ := h.marked m hm
      refine ⟨mem_append_left _ hsn, fun x hx hp hlt => ?_⟩
      rcases mem_append.1 hx with hx | hx
      · exact hist ▸ (hb x hx hp hlt).append es
      · rw [mem_singleton.1 hx] at hp hlt
        exact absurd hlt (not_below_of_inOrder (hsp ▸ hlg) hsn hp)
    · obtain ⟨rfl, hc⟩ := hes m hm
      refine ⟨by simp, fun x hx hp hlt => ?_⟩
      rcases mem_append.1 hx with hx | hx
      · rcases h.settled hst x hx with hs | hs
        · exact hist ▸ hs.append es
        · exact absurd hp (hc x hs)
      · rw [mem_singleton.1 hx] at hlt
        omega
  · simp [Ready, hpc]

theorem Inv.flush (h : Inv log s seen rest) (hun : s.pc.unmarked = []) (hlv : s.pc.live)
    (hk : k = .finish ∨ s.pc = .select) : Inv log (flushBatch s k) seen rest := by
  have hst : s.pc ≠ .stopped := by intro hs; simp [hs, Pc.live] at hlv
  obtain ⟨pc, cancelled, poller, recordCh, batch, pending, hist⟩ := s
  simp only at hun hk hst
  cases batch with
  | nil =>
    refine h.silent rfl (fun hl => ?_) (fun hp => ?_) ?_
    · cases k with
      | resume =>
        rcases hk with hk | rfl
        · cases hk
        · exact ⟨rfl, rfl⟩
      | finish => simp [flushBatch, After.pc, Pc.live] at hl
    · exact ⟨hst, by simp [flushBatch, State.waiting, hun]⟩
    · cases k <;> exact trivial
  | cons msg todo =>
    refine h.silent rfl (fun hl => ?_) (fun _ => ?_) trivial
    · cases k with
      | resume =>
        rcases hk with hk | rfl
        · cases hk
        · exact ⟨rfl, rfl⟩
      | finish => simp [flushBatch, Pc.live] at hl
    · refine ⟨hst, ?_⟩
      simp only [State.waiting, hun]
      simp [flushBatch, Pc.unmarked]

theorem Inv.deliveredMark {msg : Prepared} {todo : List Prepared} (hlg : InOrder log) (h : Inv log s seen rest)
    (hpc : s.pc = .mark msg todo k) :
    Inv log { s with pc := nextDelivery todo k, hist := s.hist ++ [.marked msg.record] } seen rest := by
  have hst : s.pc ≠ .stopped := by rw [hpc]; simp
  have hsn : Settled s.hist msg.record := by
    have := h.ready
    rwa [Ready, hpc] at this
  have hw : s.waiting = msg.record :: (todo ++ s.batch).map (·.record) := by
    simp [State.waiting, hpc, Pc.unmarked]
  have hq : (msg.record :: (todo ++ s.batch).map (·.record)).Sublist seen := hw ▸ h.queue hst
  have hsr : InOrder (msg.record :: (todo ++ s.batch).map (·.record)) :=
    List.Pairwise.sublist (hq.trans (h.split ▸ sublist_append_left seen rest)) hlg
  have hn : (nextDelivery todo k).unmarked = todo := by
    cases todo with
    | nil => exact k.pc_unmarked
    | cons => rfl
  refine ⟨h.split, fun hl => ?_, fun _ => ?_, fun _ r hr => ?_, fun m hm => ?_, ?_⟩
  · have hk : k = .resume := by
      cases todo <;> cases k <;> simp_all [nextDelivery, After.pc, Pc.live]
    have hc : (nextDelivery todo k).current = s.pc.current := by
      rw [hpc, hk]; cases todo <;> rfl
    rw [h.ahead (by rw [hpc, hk]; rfl)]
    simp only [State.ahead, hc]
  · rw [State.waiting, hn]
    exact (sublist_cons_self _ _).trans hq
  · rcases h.settled hst r hr with hs | hs
    · exact .inl (hs.append _)
    · rw [hw, mem_cons] at hs
      rcases hs with rfl | hs
      · exact .inl (hsn.append _)
      · rw [State.waiting, hn]
        exact .inr hs
  · rw [mem_append, mem_singleton] at hm
    rcases hm with hm | hm
    · obtain ⟨hse, hb⟩ := h.marked m hm
      exact ⟨hse, fun r hr hp hlt => (hb r hr hp hlt).append _⟩
    · cases hm
      refine ⟨hq.subset (by simp), fun r hr hp hlt => Settled.append ?_ _⟩
      rcases h.settled hst r hr with hs | hs
      · exact hs
      · rw [hw, mem_cons] at hs
        rcases hs with rfl | hs
        · exact hsn
        · have := (pairwise_cons.1 hsr).1 r hs hp.symm
          omega
  · cases todo <;> cases k <;> exact trivial

def dropMarkInOrder (s : State) (a : Act) : Bool :=
  match s.pc, a with
  | .dropMark r, .dropMark => s.batch.all fun msg => !decide (msg.record.SamePartition r)
  | _, _ => true

attribute [local simp] State.waiting State.ahead Pc.unmarked Pc.live Pc.current

theorem inv_step {cfg : Config} {a : Act} (hlg : InOrder log) (h : Inv log s seen rest) (hok : dropMarkInOrder s a = true)
    (hs : step cfg s a = some s') : ∃ seen' rest', Inv log s' seen' rest' := by
  cases a with simp only [step] at hs
  | cancel =>
    cases hs
    refine ⟨seen, rest, h.silent rfl (fun hl => ⟨hl, rfl⟩) (fun hp => ⟨hp, rfl⟩) ?_⟩
    have hr := h.ready
    unfold Ready at hr ⊢
    cases hpc : s.pc <;> simp_all
  | pollFetches n =>
    split at hs <;> cases hs
    rename_i hpl
    refine ⟨seen, rest, h.silent rfl (fun hl => ⟨hl, ?_⟩) (fun hp => ⟨hp, rfl⟩) h.ready⟩
    cases hc : s.cancelled <;> simp [hpl, Poller.held]
  | pollerSend | pollerDone =>
    split at hs
    · split at hs <;> cases hs
      rename_i hpl _
      exact ⟨seen, rest, h.silent rfl (fun hl => ⟨hl, by simp [hpl, Poller.held]⟩) (fun hp => ⟨hp, rfl⟩) h.ready⟩
    · cases hs
  | ctxDone =>
    split at hs
    · rename_i hpc
      split at hs <;> cases hs
      exact ⟨seen, rest, h.flush (by rw [hpc]; rfl) (by rw [hpc]; rfl) (.inl rfl)⟩
    · cases hs
  | flushTimer =>
    split at hs <;> cases hs
    rename_i hpc
    exact ⟨seen, rest, h.flush (by rw [hpc]; rfl) (by rw [hpc]; rfl) (.inr hpc)⟩
  | recv =>
    split at hs <;> cases hs
    rename_i hpc hch
    exact ⟨seen, rest, h.silent rfl (fun _ => by simp [hpc, hch]) (fun _ => by simp [hpc]) trivial⟩
  | gate a =>
    split at hs <;> try cases hs
    rename_i g r hpc
    obtain ⟨out, ho, rfl⟩ := Option.map_eq_some_iff.1 hs
    refine ⟨seen, rest, h.silent (by cases out <;> rfl) (fun _ => ?_) (fun _ => ?_) ?_⟩
    · cases out <;> simp [afterGate, hpc]
    · cases out <;> simp [afterGate, hpc]
    · cases out with
      | still g | admitted => trivial
      | abandoned => exact .inr (Gate.cancelled_of_abandoned ho)
  | extract tenantResolver =>
    split at hs <;> cases hs
    rename_i r hpc
    have hlv : s.pc.live = true := by rw [hpc]; rfl
    obtain ⟨channel, reason, tenant⟩ := extractChannel tenantResolver r
    cases reason with
    | none =>
      have hpr : Inv log { s with pc := .select, batch := s.batch ++ [⟨r.topic, channel, r.value, r⟩] } (seen ++ [r]) _ :=
        h.prepared hlg (append_nil _).symm hlv (by simp [hpc]) rfl (by simp [hpc]) (.inl rfl) (by simp)
      simp only [afterExtract, appendBatch]
      split
      · exact ⟨_, _, hpr.flush rfl rfl (.inr rfl)⟩
      · exact ⟨_, _, hpr⟩
    | some reason =>
      cases reason <;>
        refine ⟨seen, rest, h.quiet rfl (by simp) (fun _ => ⟨hlv, by simp [afterExtract, hpc]⟩)
          (fun _ => ⟨by simp [hpc], by simp [afterExtract, hpc]⟩) ?_⟩
      case unknownTopic => exact .inl (settled_registryMiss _ _)
      all_goals exact settled_routedToDLQ _ _ _ _
  | checkErr =>
    split at hs <;> cases hs
    rename_i r hpc
    have hlv : s.pc.live = true := by rw [hpc]; rfl
    split
    · exact ⟨seen, rest, h.flush (by rw [hpc]; rfl) hlv (.inl rfl)⟩
    rename_i hc
    -- the context is alive, so the record was a registry miss
    have hms : Settled s.hist r := by
      have hr := h.ready
      rw [Ready, hpc] at hr
      exact hr.resolve_right hc
    exact ⟨_, _, h.prepared hlg (append_nil _).symm hlv (by simp [hpc]) rfl (by simp [hpc]) (.inr ⟨rfl, hms⟩) (by simp)⟩
  | dropMark =>
    split at hs <;> cases hs
    rename_i r hpc
    have hd : Settled s.hist r := by
      have hr := h.ready
      rwa [Ready, hpc] at hr
    have hcl : ∀ x ∈ s.waiting, ¬ x.SamePartition r := by
      simpa [dropMarkInOrder, hpc] using hok
    exact ⟨_, _, h.prepared (w := []) hlg rfl (by rw [hpc]; rfl) (by simp [hpc]) rfl (by simp [hpc]) (.inr ⟨rfl, hd.append _⟩)
      (fun m hm => ⟨by simpa using hm, hcl⟩)⟩
  | deliver a =>
    split at hs <;> try cases hs
    rename_i t msg todo k hpc
    obtain ⟨out, -, rfl⟩ := Option.map_eq_some_iff.1 hs
    cases out with
    | still t =>
      refine ⟨seen, rest, h.silent rfl (fun hl => ?_) (fun _ => by simp [afterRetry, hpc]) trivial⟩
      cases k <;> simp_all [afterRetry, State.ahead, Pc.live, Pc.current]
    | delivered =>
      refine ⟨seen, rest, h.quiet rfl (by simp) (fun hl => ?_) (fun _ => by simp [afterRetry, hpc]) (settled_broadcast _ _ _)⟩
      cases k <;> simp_all [afterRetry, State.ahead, Pc.live, Pc.current]
    | abandoned =>
      exact ⟨seen, rest, h.silent rfl (by simp [afterRetry]) (by simp [afterRetry]) trivial⟩
  | mark =>
    split at hs <;> cases hs
    rename_i msg todo k hpc
    exact ⟨seen, rest, h.deliveredMark hlg hpc⟩

/-- **The batched loop is at-least-once when drops are marked in order**: only while no record of their partition waits. -/
theorem consumeLoop_atLeastOnce (cfg : Config) (log : List Record) (hlog : InOrder log)
    (acts : List Act) (s : State) (hrun : run (step cfg) (init log) acts = some s)
    (hok : Along (step cfg) (fun s a => dropMarkInOrder s a = true) (init log) acts) :
    AtLeastOnce log s.hist := by
  obtain ⟨seen, rest, h⟩ := run_invariant_along (fun s => ∃ seen rest, Inv log s seen rest)
    (fun _ _ _ ⟨_, _, h⟩ ha hs => inv_step hlog h ha hs) ⟨[], log, inv_init log⟩ hok hrun
  intro m hm r hr hp hlt
  obtain ⟨hseen, hbelow⟩ := h.marked m hm
  rw [h.split] at hlog hr
  exact hbelow r (hlog.mem_of_lt hseen hr hp hlt) hp hlt

def prepareNext : List Act :=
  [.recv, .gate (.allow true), .gate (.pause false), .extract (some fun _ => some (str "acme"))]

def headerless : Record := ⟨acmeTopic, 0, 1, [], [], []⟩
def dropBehindBatch : List Record := [acmeRecord 0 (str "acme.a"), headerless]

def flushedRun : List Act :=
  [.pollFetches 2, .pollerSend, .pollerSend] ++ prepareNext ++
    [.flushTimer, .deliver (.bus false), .deliver .timer, .deliver (.bus true), .mark] ++
    prepareNext ++ [.dropMark]

theorem consumeLoop_atLeastOnce_flushedRun :
    InOrder dropBehindBatch ∧ ∃ s, run (step ⟨str "prod", false, 10⟩) (init dropBehindBatch) flushedRun = some s ∧
      s.hist = [.broadcast (str "acme.a") (acmeRecord 0 (str "acme.a")),
        .marked (acmeRecord 0 (str "acme.a")), .routedToDLQ headerless .missingChannelHeader none,
        .marked headerless] ∧
      AtLeastOnce dropBehindBatch s.hist := by
  have hlog : InOrder dropBehindBatch := by decide
  obtain ⟨s, hs, hhist⟩ : ∃ s, run (step ⟨str "prod", false, 10⟩) (init dropBehindBatch) flushedRun = some s ∧
      s.hist = [.broadcast (str "acme.a") (acmeRecord 0 (str "acme.a")),
        .marked (acmeRecord 0 (str "acme.a")), .routedToDLQ headerless .missingChannelHeader none,
        .marked headerless] := ⟨_, rfl, rfl⟩
  exact ⟨hlog, s, hs, hhist, consumeLoop_atLeastOnce _ _ hlog flushedRun s hs (by decide)⟩

def unflushedRun : List Act :=
  [.pollFetches 2, .pollerSend, .pollerSend] ++ prepareNext ++ prepareNext ++ [.dropMark]

/-- **Bug**: the inline mark of a drop (`consumer.go:807`) passes a record of the partition that waits in the batch; if the
process ends before the flush, nobody has received it. -/
theorem dropMark_passes_waiting_record :
    InOrder dropBehindBatch ∧ ∃ s, run (step ⟨str "prod", false, 10⟩) (init dropBehindBatch) unflushedRun = some s ∧
      s.hist = [.routedToDLQ headerless .missingChannelHeader none, .marked headerless] ∧
      ¬ AtLeastOnce dropBehindBatch s.hist := by
  refine ⟨by decide, _, rfl, rfl, fun h => ?_⟩
  have hset : Settled [.routedToDLQ headerless .missingChannelHeader none, .marked headerless] (acmeRecord 0 (str "acme.a")) :=
    h headerless (by decide) _ (by decide) (by decide) (by decide)
  simp [Settled, headerless, acmeRecord] at hset

end Sukko.Kafka.Batched
