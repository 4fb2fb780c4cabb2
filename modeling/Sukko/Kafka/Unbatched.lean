import Sukko.Kafka.Record
import Sukko.Lib.Steps
/-
# The unbatched consume loop

A label is the statement that executes next with the answer it gets; `cancel` can come between any two.
-/

namespace Sukko.Kafka.Unbatched
open Steps List

inductive Pc
  | head
  | poll
  | next (fetch : List Record)
  | gate (g : Gate) (r : Record) (fetch : List Record)
  | extract (r : Record) (fetch : List Record)
  | deliver (t : Retry) (channel : GoStr) (r : Record) (fetch : List Record)
  | mark (r : Record) (fetch : List Record)
  | skip (fetch : List Record)
  | stopped
deriving DecidableEq

structure State where
  pc : Pc
  cancelled : Bool
  pending : List Record
  hist : List Event
deriving DecidableEq

def init (log : List Record) : State := ⟨.head, false, log, []⟩

inductive Act
  | cancel
  | loop
  | poll (n : Nat)
  | next
  | gate (a : GateAct)
  | extract (tenantResolver : Resolver)
  | deliver (a : RetryAct)
  | mark

def afterGate (s : State) (r : Record) (fetch : List Record) : GateOut → State
  | .still g => { s with pc := .gate g r fetch }
  | .admitted => { s with pc := .extract r fetch }
  | .abandoned => { s with pc := .skip fetch }

def afterExtract (cfg : Config) (s : State) (r : Record) (fetch : List Record) :
    GoStr × Option Reason × GoStr → State
  | (channel, none, _) => { s with pc := .deliver .send channel r fetch }
  | (_, some .unknownTopic, _) => { s with pc := .next fetch, hist := s.hist ++ [.registryMiss r] }
  | (_, some reason, tenant) =>
    { s with pc := .mark r fetch
             hist := s.hist ++ [.routedToDLQ r reason (routeToDLQ cfg r tenant reason)] }

def afterRetry (s : State) (channel : GoStr) (r : Record) (fetch : List Record) : RetryOut → State
  | .still t => { s with pc := .deliver t channel r fetch }
  | .delivered => { s with pc := .mark r fetch, hist := s.hist ++ [.broadcast channel r] }
  | .abandoned => { s with pc := .skip fetch }

def step (cfg : Config) (s : State) : Act → Option State
  | .cancel => some { s with cancelled := true }
  | .loop =>
    match s.pc with
    | .head => some { s with pc := if s.cancelled then .stopped else .poll }
    | _ => none
  | .poll n =>
    match s.pc with
    | .poll => some { s with pc := .next (s.pending.take n), pending := s.pending.drop n }
    | _ => none
  | .next =>
    match s.pc with
    | .next [] => some { s with pc := .head }
    | .next (r :: fetch) => some { s with pc := .gate .pace r fetch }
    | .skip [] => some { s with pc := .stopped }
    | .skip (_ :: fetch) => some { s with pc := .skip fetch }
    | _ => none
  | .gate a =>
    match s.pc with
    | .gate g r fetch => (g.step s.cancelled a).map (afterGate s r fetch)
    | _ => none
  | .extract tenantResolver =>
    match s.pc with
    | .extract r fetch => some (afterExtract cfg s r fetch (extractChannel tenantResolver r))
    | _ => none
  | .deliver a =>
    match s.pc with
    | .deliver t channel r fetch => (t.step s.cancelled a).map (afterRetry s channel r fetch)
    | _ => none
  | .mark =>
    match s.pc with
    | .mark r fetch => some { s with pc := .next fetch, hist := s.hist ++ [.marked r] }
    | _ => none

def Pc.inFlight : Pc → List Record
  | .next fetch => fetch
  | .gate _ r fetch | .extract r fetch | .deliver _ _ r fetch | .mark r fetch => r :: fetch
  | .head | .poll | .skip _ | .stopped => []

def Pc.live : Pc → Bool
  | .skip _ | .stopped => false
  | _ => true

/-! ## What a run keeps -/

/-- The log is a finished part, each of whose records is settled, what is in flight, and what is still to be polled. -/
structure Inv (log : List Record) (s : State) (done rest : List Record) : Prop where
  split : log = done ++ rest
  ahead : s.pc.live → rest = s.pc.inFlight ++ s.pending
  settled : ∀ r ∈ done, Settled s.hist r
  marked : ∀ m, .marked m ∈ s.hist → m ∈ done
  ready : ∀ r fetch, s.pc = .mark r fetch → Settled s.hist r

variable {done log rest : List Record} {s s' : State}

theorem Inv.quiet (h : Inv log s done rest)
    (hlv : s'.pc.live → s.pc.live ∧ s'.pc.inFlight ++ s'.pending = s.pc.inFlight ++ s.pending) {es : List Event}
    (hist : s'.hist = s.hist ++ es) (hes : ∀ m, .marked m ∉ es)
    (hrd : ∀ r fetch, s'.pc = .mark r fetch → Settled s'.hist r) : Inv log s' done rest where
  split := h.split
  ahead hl := by rw [(hlv hl).2]; exact h.ahead (hlv hl).1
  settled r hr := hist ▸ (h.settled r hr).append es
  marked m hm := by
    rw [hist, mem_append] at hm
    exact h.marked m (hm.resolve_right (hes m))
  ready := hrd

theorem Inv.silent (h : Inv log s done rest)
    (hl : s'.pc.live → s.pc.live ∧ s'.pc.inFlight ++ s'.pending = s.pc.inFlight ++ s.pending) (hist : s'.hist = s.hist)
    (hr : ∀ r fetch, s'.pc = .mark r fetch → Settled s'.hist r) : Inv log s' done rest :=
  h.quiet hl (by rw [hist, append_nil]) (by simp) hr

theorem Inv.finish {fetch : List Record} {r : Record} (h : Inv log s done rest) (hl : s.pc.live)
    (hin : s.pc.inFlight = r :: fetch) (hpc : s'.pc = .next fetch) (hp : s'.pending = s.pending) {e : Event}
    (hist : s'.hist = s.hist ++ [e]) (hset : Settled s'.hist r) (he : ∀ m, e = .marked m → m = r) :
    Inv log s' (done ++ [r]) (fetch ++ s.pending) where
  split := by rw [h.split, h.ahead hl, hin]; simp
  ahead _ := by rw [hpc, hp]; rfl
  settled := forall_mem_append.2 ⟨fun x hx => hist ▸ (h.settled x hx).append [e], forall_mem_singleton.2 hset⟩
  marked m hm := by
    rw [hist, mem_append, mem_singleton] at hm
    rcases hm with hm | hm
    · exact mem_append_left _ (h.marked m hm)
    · rw [he m hm.symm]; simp
  ready x f hf := by rw [hpc] at hf; cases hf

theorem inv_init (log : List Record) : Inv log (init log) [] log where
  split := rfl
  ahead _ := rfl
  settled _ h := by cases h
  marked _ h := by cases h
  ready _ _ h := by cases h

attribute [local simp] Pc.live Pc.inFlight

theorem inv_step {cfg : Config} {a : Act} (h : Inv log s done rest) (hs : step cfg s a = some s') :
    ∃ done' rest', Inv log s' done' rest' := by
  cases a with simp only [step] at hs
  | cancel =>
    cases hs
    exact ⟨done, rest, h.silent (fun hl => ⟨hl, rfl⟩) rfl h.ready⟩
  | loop =>
    split at hs <;> cases hs
    rename_i hpc
    refine ⟨done, rest, h.silent ?_ rfl ?_⟩
    · cases s.cancelled <;> simp [hpc]
    · cases s.cancelled <;> simp
  | poll n =>
    split at hs <;> cases hs
    rename_i hpc
    exact ⟨done, rest, h.silent (fun _ => by simp [hpc]) rfl (by simp)⟩
  | next =>
    split at hs <;> cases hs <;> rename_i hpc <;>
      exact ⟨done, rest, h.silent (by simp [hpc]) rfl (by simp)⟩
  | gate a =>
    split at hs <;> try cases hs
    rename_i g r fetch hpc
    obtain ⟨out, -, rfl⟩ := Option.map_eq_some_iff.1 hs
    cases out <;>
      exact ⟨done, rest, h.silent (by simp [afterGate, hpc]) rfl (by simp [afterGate])⟩
  | extract tenantResolver =>
    split at hs <;> cases hs
    rename_i r fetch hpc
    obtain ⟨channel, reason, tenant⟩ := extractChannel tenantResolver r
    cases reason with
    | none =>
      exact ⟨done, rest, h.silent (by simp [afterExtract, hpc]) rfl (by simp [afterExtract])⟩
    | some reason =>
      cases reason
      case unknownTopic =>
        exact ⟨_, _, h.finish (by simp [hpc])
          (by simp [hpc]) rfl rfl rfl (settled_registryMiss _ r) (by simp)⟩
      all_goals
        refine ⟨done, rest, h.quiet (by simp [afterExtract, hpc]) rfl (by simp) ?_⟩
        rintro x f hx
        cases hx
        exact settled_routedToDLQ _ _ _ _
  | deliver a =>
    split at hs <;> try cases hs
    rename_i t channel r fetch hpc
    obtain ⟨out, -, rfl⟩ := Option.map_eq_some_iff.1 hs
    cases out with
    | still t =>
      exact ⟨done, rest, h.silent (by simp [afterRetry, hpc]) rfl (by simp [afterRetry])⟩
    | delivered =>
      refine ⟨done, rest, h.quiet (by simp [afterRetry, hpc]) rfl (by simp) ?_⟩
      rintro x f hx
      cases hx
      exact settled_broadcast _ _ _
    | abandoned =>
      exact ⟨done, rest, h.silent (by simp [afterRetry]) rfl (by simp [afterRetry])⟩
  | mark =>
    split at hs <;> cases hs
    rename_i r fetch hpc
    exact ⟨_, _, h.finish (by simp [hpc])
      (by simp [hpc]) rfl rfl rfl ((h.ready r fetch hpc).append _) (by simp)⟩

theorem gone_step {cfg : Config} {t t' : State} {a : Act} (h : t.pc.live = false ∧ t.hist = s.hist)
    (ht : step cfg t a = some t') : t'.pc.live = false ∧ t'.hist = s.hist := by
  obtain ⟨hg, hist⟩ := h
  cases a with simp only [step] at ht
  | cancel => cases ht; exact ⟨hg, hist⟩
  | next =>
    split at ht <;> cases ht <;> simp_all [Pc.live]
  | _ =>
    split at ht <;> simp_all [Pc.live]

/-- **The unbatched loop is at-least-once**, whatever is answered and wherever it is canceled; after `abort` nothing is marked.
-/
theorem consumeLoopUnbatched_atLeastOnce (cfg : Config) (log : List Record) (hlog : InOrder log)
    (acts : List Act) (s : State) (hrun : run (step cfg) (init log) acts = some s) :
    AtLeastOnce log s.hist ∧
      ∀ fetch, s.pc = .skip fetch → ∀ more s', run (step cfg) s more = some s' →
        s'.hist = s.hist := by
  constructor
  · obtain ⟨done, rest, h⟩ := run_invariant (fun s => ∃ done rest, Inv log s done rest)
      (fun _ _ _ ⟨_, _, h⟩ hs => inv_step h hs) ⟨[], log, inv_init log⟩ hrun
    intro m hm r hr hp hlt
    rw [h.split] at hlog hr
    exact h.settled r (hlog.mem_of_lt (h.marked m hm) hr hp hlt)
  · intro fetch hpc more s' hmore
    have hgone : s.pc.live = false := by rw [hpc]; rfl
    exact (run_invariant (fun t => t.pc.live = false ∧ t.hist = s.hist)
      (fun _ _ _ h hs => gone_step h hs) ⟨hgone, rfl⟩ hmore).2

def abortedRun : List Act :=
  let pass : List Act := [.next, .gate (.allow true), .gate (.pause false),
    .extract (some fun _ => some (str "acme"))]
  [.loop, .poll 3] ++ pass ++ [.deliver (.bus true), .mark] ++ pass ++ [.mark] ++ pass ++
    [.deliver (.bus false), .cancel, .deliver .ctxDone]

theorem consumeLoopUnbatched_atLeastOnce_abortedRun :
    let log := [acmeRecord 0 (str "acme.a"), ⟨acmeTopic, 0, 1, [], [], []⟩, acmeRecord 2 (str "acme.b")]
    InOrder log ∧ ∃ s, run (step ⟨str "prod", true, 2⟩) (init log) abortedRun = some s ∧
      s.pc = .skip [] ∧ AtLeastOnce log s.hist ∧
      ∀ more s', run (step ⟨str "prod", true, 2⟩) s more = some s' → s'.hist = s.hist := by
  intro log
  have hlog : InOrder log := by decide
  obtain ⟨s, hs, hpc⟩ : ∃ s, run (step ⟨str "prod", true, 2⟩) (init log) abortedRun = some s ∧
      s.pc = .skip [] := ⟨_, rfl, rfl⟩
  obtain ⟨hone, hstop⟩ := consumeLoopUnbatched_atLeastOnce _ log hlog abortedRun s hs
  exact ⟨hlog, s, hs, hpc, hone, hstop [] hpc⟩

end Sukko.Kafka.Unbatched
