import Sukko.History.Writer
/-
# At most one pod writes between two acquisitions of the history lock

Valkey does not check the lock when it executes an `XADD`: nothing ties a write to the lock but time. Exclusion holds if each
`XADD` is executed before the lease of its pod ends (`Timely`), counted from the last granted lock command.
-/

namespace Sukko.History
open List Function Option
open Lease Steps

theorem Site.op_eq_release {site : Site} : site.op = .release ↔ site = .release := by
  cases site <;> simp [Site.op]

/-! ## What a pod can rely on -/

def Leased (ttl now : Nat) (lock : Option (Lock PodID)) (p : PodID) (v : Pod) : Prop :=
  ∀ l, v.lease = some l → .release ∉ v.orphans ∧ l ≤ ms now + ttl ∧ (ms now ≤ l → HeldUntil lock p l)

structure PodOk (ttl now : Nat) (lock : Option (Lock PodID)) (p : PodID) (v : Pod) : Prop where
  leased : Leased ttl now lock p v
  sentAt : ∀ c, v.phase = .calling c → c.sentAt ≤ now
  releasing : ∀ t cmd, v.phase = .calling ⟨.release, t, cmd⟩ → v.lease = none
  settled : ∀ site t ok, v.phase = .calling ⟨site, t, .executed ok⟩ → v.orphans = []
  answered : ∀ site t, v.phase = .calling ⟨site, t, .executed true⟩ → site ≠ .release → ms now ≤ ms t + ttl →
    HeldUntil lock p (ms t + ttl)

variable {ttl now t : Nat} {lock : Option (Lock PodID)} {p : PodID} {v : Pod} {cfg : HistoryConfig} {env : GoStr} {site : Site}
  {op : Op}

namespace PodOk

theorem of_idle (hp : ∀ c, v.phase ≠ .calling c) (hl : Leased ttl now lock p v) : PodOk ttl now lock p v where
  leased := hl
  sentAt c hc := absurd hc (hp c)
  releasing _ _ hc := absurd hc (hp _)
  settled _ _ _ hc := absurd hc (hp _)
  answered _ _ hc := absurd hc (hp _)

section
variable (hl : Leased ttl now lock p v)
include hl

theorem call (hs : site = .release → v.lease = none) : PodOk ttl now lock p (v.call now site) where
  leased := hl
  sentAt c hc := by
    simp only [Pod.call, Phase.calling.injEq] at hc
    subst hc
    exact Nat.le_refl _
  releasing t cmd hc := by
    simp only [Pod.call, Phase.calling.injEq, Call.mk.injEq] at hc
    exact hs hc.1
  settled site t ok hc := by simp [Pod.call] at hc
  answered site t hc := by simp [Pod.call] at hc

theorem exitRun : PodOk ttl now lock p (v.exitRun now) := by
  unfold Pod.exitRun
  by_cases ha : v.isActiveWriter = true
  · rw [if_pos ha]
    have hn : Leased ttl now lock p { v with lease := none } := fun l h => by cases h
    exact call hn fun _ => rfl
  · rw [if_neg ha]
    exact of_idle (fun c hc => by cases hc) hl

theorem flushBatch : PodOk ttl now lock p (v.flushBatch cfg env).1 := by
  refine of_idle (fun c hc => ?_) hl
  by_cases hn : (v.flushBatch cfg env).2 = []
  · have hlp : (v.flushBatch cfg env).1.phase = .looping := if_pos hn
    rw [hlp] at hc
    cases hc
  · have hf : (v.flushBatch cfg env).1.phase = .flushing := if_neg hn
    rw [hf] at hc
    cases hc

end

theorem granted (hv : PodOk cfg.lockTTLMs now lock p v)
    (hc : v.phase = .calling ⟨site, t, .executed true⟩) (hs : site ≠ .release) {v' : Pod}
    (ho : v'.orphans = v.orphans) : Leased cfg.lockTTLMs now lock p (v'.granted cfg t) := by
  intro l hl
  simp only [Pod.granted] at hl
  cases hl
  refine ⟨?_, ?_, hv.answered site t hc hs⟩
  · simp [Pod.granted, ho, hv.settled site t true hc]
  · exact Nat.add_le_add_right (ms_mono (hv.sentAt _ hc)) _

theorem abandon (hv : PodOk ttl now lock p v) {c : Call} (hc : v.phase = .calling c) : Leased ttl now lock p (v.abandon c) := by
  intro l hl
  obtain ⟨hrl, hr⟩ := hv.leased l hl
  refine ⟨?_, hr⟩
  simp only [Pod.abandon]
  by_cases hs : c.command = .sent
  · rw [if_pos hs, mem_append, mem_singleton]
    rintro (hm | hop)
    · exact hrl hm
    · have hst := Site.op_eq_release.1 hop.symm
      have hn := hv.releasing c.sentAt c.command (by rw [hc, ← hst])
      rw [show (v.abandon c).lease = v.lease from rfl, hn] at hl
      cases hl
  · rw [if_neg hs]
    exact hrl

theorem advance (hv : PodOk ttl now lock p v) {now' : Nat} (hn : now ≤ now') : PodOk ttl now' lock p v where
  leased l hl := by
    obtain ⟨hr, hle, hh⟩ := hv.leased l hl
    have hms := ms_mono hn
    exact ⟨hr, by omega, fun h => hh (by omega)⟩
  sentAt c hc := Nat.le_trans (hv.sentAt c hc) hn
  releasing := hv.releasing
  settled := hv.settled
  answered site t hc hs h := by
    have hms := ms_mono hn
    exact hv.answered site t hc hs (by omega)

/-! ### When Valkey executes a lock command -/

theorem leased_exec (hl : Leased ttl now lock p v) (hop : v.lease ≠ none → op ≠ .release) :
    Leased ttl now (exec (ms now) ttl p op lock).1 p v := by
  intro l hls
  obtain ⟨hr, hle, hh⟩ := hl l hls
  exact ⟨hr, hle, fun h => (hh h).exec h hle fun _ => hop (by simp [hls])⟩

variable (hv : PodOk ttl now lock p v)
include hv

theorem exec_other {q : PodID} (hq : q ≠ p) (op : Op) : PodOk ttl now (exec (ms now) ttl q op lock).1 p v where
  leased l hl := by
    obtain ⟨hr, hle, hh⟩ := hv.leased l hl
    exact ⟨hr, hle, fun h => (hh h).exec h hle fun heq => absurd heq hq⟩
  sentAt := hv.sentAt
  releasing := hv.releasing
  settled := hv.settled
  answered site t hc hs h := by
    have hle : ms t + ttl ≤ ms now + ttl := Nat.add_le_add_right (ms_mono (hv.sentAt _ hc)) _
    exact (hv.answered site t hc hs h).exec h hle fun heq => absurd heq hq

theorem exec_orphan {rest : List Op} (ho : v.orphans = op :: rest) :
    PodOk ttl now (exec (ms now) ttl p op lock).1 p { v with orphans := rest } where
  leased l hl := by
    have hop : v.lease ≠ none → op ≠ .release := by
      rintro - rfl
      exact (hv.leased l hl).1 (by simp [ho])
    obtain ⟨hrl, hr⟩ := leased_exec hv.leased hop l hl
    refine ⟨fun hm => hrl ?_, hr⟩
    rw [ho]
    exact mem_cons_of_mem op hm
  sentAt := hv.sentAt
  releasing := hv.releasing
  settled site t ok hc := by simpa [ho] using hv.settled site t ok hc
  answered site t hc := by simpa [ho] using hv.settled site t true hc

theorem exec_call (ho : v.orphans = []) (hc : v.phase = .calling ⟨site, t, .sent⟩) :
    PodOk ttl now (exec (ms now) ttl p site.op lock).1 p
      { v with phase := .calling ⟨site, t, .executed (exec (ms now) ttl p site.op lock).2⟩, orphans := [] } where
  leased := by
    rw [← ho]
    refine leased_exec hv.leased fun hl hop => hl ?_
    have hs := Site.op_eq_release.1 hop
    exact hv.releasing t .sent (by rw [hc, hs])
  sentAt c h := by
    cases h
    exact hv.sentAt ⟨site, t, .sent⟩ hc
  releasing t' cmd h := by
    cases h
    exact hv.releasing t .sent hc
  settled _ _ _ _ := rfl
  answered site' t' h hs _ := by
    simp only [Phase.calling.injEq, Call.mk.injEq, Command.executed.injEq] at h
    obtain ⟨rfl, rfl, hg⟩ := h
    have hop : site.op ≠ .release := fun h => hs (Site.op_eq_release.1 h)
    exact (heldUntil_of_granted hop hg).mono (Nat.add_le_add_right (ms_mono (hv.sentAt _ hc)) _)

end PodOk

/-! ## All pods and Valkey -/

structure Inv (cfg : HistoryConfig) (s : State) : Prop where
  pods : ∀ p, PodOk cfg.lockTTLMs s.now s.lock p (s.pods p)
  owner : ∀ h, s.lock = some h → s.acquirers.getLast? = some h.owner
  writes : ∀ w ∈ s.writes, ∃ i, w.epoch = i + 1 ∧ s.acquirers[i]? = some w.pod

/-- The `XADD` is executed before the lease of its pod ends. -/
def Timely (s : State) : Act → Prop
  | .land p _ => (s.pods p).lease.any (fun l => ms s.now ≤ l) = true
  | _ => True

instance (s : State) (a : Act) : Decidable (Timely s a) := by
  cases a <;> unfold Timely <;> infer_instance

namespace Inv
variable {s s' : State}

theorem start (cfg : HistoryConfig) : Inv cfg State.start where
  pods p := PodOk.of_idle (fun c hc => by cases hc) fun l hl => by cases hl
  owner h hl := by cases hl
  writes w hw := by cases hw

variable (hi : Inv cfg s)
include hi

theorem setPod {p : PodID} {v : Pod} (hv : PodOk cfg.lockTTLMs s.now s.lock p v) : Inv cfg (s.setPod p v) where
  pods q := by
    simp only [State.setPod]
    by_cases hq : q = p
    · subst hq
      rw [update_self]
      exact hv
    · rw [update_of_ne hq]
      exact hi.pods q
  owner := hi.owner
  writes := hi.writes

theorem flush {p : PodID} {v : Pod} (hl : Leased cfg.lockTTLMs s.now s.lock p v) : Inv cfg (s.flush cfg env p v) :=
  { hi.setPod (PodOk.flushBatch hl) with }

theorem setIdle {p : PodID} {v : Pod} (hp : ∀ c, v.phase ≠ .calling c)
    (hls : v.lease = (s.pods p).lease) (ho : v.orphans = (s.pods p).orphans) : Inv cfg (s.setPod p v) := by
  refine hi.setPod (PodOk.of_idle hp fun l hl => ?_)
  rw [ho]
  exact (hi.pods p).leased l (hls ▸ hl)

theorem setAside {p : PodID} {v : Pod} (hp : v.phase = (s.pods p).phase)
    (hls : v.lease = (s.pods p).lease) (ho : v.orphans = (s.pods p).orphans) : Inv cfg (s.setPod p v) := by
  have hv := hi.pods p
  refine hi.setPod ⟨fun l hl => ?_, fun c hc => hv.sentAt c (hp ▸ hc), fun t cmd hc => ?_, fun site t ok hc => ?_,
    fun site t hc => hv.answered site t (hp ▸ hc)⟩
  · rw [ho]
    exact hv.leased l (hls ▸ hl)
  · rw [hls]
    exact hv.releasing t cmd (hp ▸ hc)
  · rw [ho]
    exact hv.settled site t ok (hp ▸ hc)

theorem serve {p : PodID} {v : Pod} (hv : PodOk cfg.lockTTLMs s.now (exec (ms s.now) cfg.lockTTLMs p op s.lock).1 p v) :
    Inv cfg ((s.serve cfg p op).1.setPod p v) where
  pods q := by
    simp only [State.setPod, State.serve]
    by_cases hq : q = p
    · subst hq
      rw [update_self]
      exact hv
    · rw [update_of_ne hq]
      exact (hi.pods q).exec_other (Ne.symm hq) op
  owner h hl := by
    simp only [State.setPod, State.serve] at hl ⊢
    rcases exec_owner hl with ⟨hop, hg, ho⟩ | ⟨hn, h₀, hl₀, ho⟩
    · rw [if_pos ⟨hop, hg⟩, List.getLast?_append, ho]
      rfl
    · rw [if_neg hn, ho]
      exact hi.owner h₀ hl₀
  writes w hw := by
    obtain ⟨i, he, hp⟩ := hi.writes w hw
    refine ⟨i, he, ?_⟩
    simp only [State.setPod, State.serve]
    split
    · rw [List.getElem?_append_left (List.getElem?_eq_some_iff.1 hp).1]
      exact hp
    · exact hp

theorem write {p : PodID} {cmd : XAdd} (ht : Timely s (.land p cmd)) : Inv cfg (s.write p cmd) where
  pods := hi.pods
  owner := hi.owner
  writes w hw := by
    rcases mem_append.1 hw with hw | hw
    · exact hi.writes w hw
    obtain ⟨l, hls, hn⟩ := (any_eq_true _ _).1 ht
    obtain ⟨-, -, hh⟩ := (hi.pods p).leased l hls
    obtain ⟨h, hlc, ho, -⟩ := hh (of_decide_eq_true hn)
    have hl := hi.owner h hlc
    rw [ho, List.getLast?_eq_getElem?] at hl
    have hln := (List.getElem?_eq_some_iff.1 hl).1
    rw [mem_singleton] at hw
    subst hw
    exact ⟨s.acquirers.length - 1, by simp only []; omega, hl⟩

/-! ### The steps -/

theorem answered {p : PodID} {ok : Bool} (hc : (s.pods p).phase = .calling ⟨site, t, .executed ok⟩) :
    Inv cfg (answered cfg env s p ⟨site, t, .executed ok⟩ ok) := by
  have hv := hi.pods p
  cases site with
  | release => exact hi.setIdle (fun c h => by cases h) rfl rfl
  | acquire =>
    cases ok with
    | false => exact hi.setIdle (fun c h => by cases h) rfl rfl
    | true => exact hi.setPod (PodOk.of_idle (fun c h => by cases h) (hv.granted hc (by decide) rfl))
  | renew | reacquire =>
    cases ok with
    | false => exact hi.flush hv.leased
    | true => exact hi.flush (hv.granted hc (by decide) rfl)

theorem lockFailed {p : PodID} {v : Pod} (hl : Leased cfg.lockTTLMs s.now s.lock p v) : Inv cfg (lockFailed cfg env s p v) := by
  unfold History.lockFailed
  by_cases hd : v.ctxDone = true
  · rw [if_pos hd]
    exact hi.flush hl
  · rw [if_neg hd]
    by_cases hm : cfg.historyMaxConsecutiveLockFailures ≤ v.failures + 1
    · simp only [hm, if_true]
      exact hi.setPod (PodOk.exitRun hl)
    · simp only [hm, if_false]
      exact hi.flush hl

theorem failed {p : PodID} {c : Call} (hc : (s.pods p).phase = .calling c) : Inv cfg (failed cfg env s p c) := by
  have hl := (hi.pods p).abandon hc
  unfold History.failed
  cases c.site with
  | acquire | release => exact hi.setPod (PodOk.of_idle (fun c h => by cases h) hl)
  | renew | reacquire => exact hi.lockFailed hl

theorem execute {p : PodID} (hs : step cfg env s (.execute p) = some s') : Inv cfg s' := by
  have hv := hi.pods p
  cases ho : (s.pods p).orphans with
  | cons op rest =>
    simp only [step, ho] at hs
    cases hs
    exact hi.serve (hv.exec_orphan ho)
  | nil =>
    cases hc : (s.pods p).phase with
    | stopped | subscribing | looping | flushing => simp [step, ho, hc] at hs
    | calling c =>
      obtain ⟨site, t, command⟩ := c
      cases command with
      | lost | executed ok => simp [step, ho, hc] at hs
      | sent =>
        simp only [step, ho, hc] at hs
        cases hs
        exact hi.serve (hv.exec_call ho hc)

theorem lose {p : PodID} (hs : step cfg env s (.lose p) = some s') : Inv cfg s' := by
  have hv := hi.pods p
  cases ho : (s.pods p).orphans with
  | cons op rest =>
    simp only [step, ho] at hs
    cases hs
    refine hi.setPod { hv with leased := fun l hl => ?_, settled := fun site t ok hc => ?_ }
    · obtain ⟨hrl, hr⟩ := hv.leased l hl
      refine ⟨fun hm => hrl ?_, hr⟩
      rw [ho]
      exact mem_cons_of_mem op hm
    · simpa [ho] using hv.settled site t ok hc
  | nil =>
    cases hc : (s.pods p).phase with
    | stopped | subscribing | looping | flushing => simp [step, ho, hc] at hs
    | calling c =>
      obtain ⟨site, t, command⟩ := c
      cases command with
      | lost | executed ok => simp [step, ho, hc] at hs
      | sent =>
        simp only [step, ho, hc] at hs
        cases hs
        refine hi.setPod
          ⟨fun l hl => ho ▸ hv.leased l hl, fun c h => ?_, fun t' cmd h => ?_, fun _ _ _ h => ?_, fun _ _ h => ?_⟩
        · cases h
          exact hv.sentAt ⟨site, t, .sent⟩ hc
        · cases h
          exact hv.releasing t .sent hc
        · simp at h
        · simp at h

theorem step {a : Act} (ht : Timely s a) (hs : step cfg env s a = some s') : Inv cfg s' := by
  cases a with simp only [History.step, guarded] at hs
  | execute p => exact @execute cfg env s s' hi p hs
  | lose p => exact @lose cfg env s s' hi p hs
  | advance d =>
    cases hs
    exact { hi with pods := fun p => (hi.pods p).advance (Nat.le_add_right s.now d) }
  | shutdown p =>
    cases hs
    exact hi.setAside rfl rfl rfl
  | start p =>
    obtain ⟨-, rfl⟩ := hs
    exact hi.setPod (PodOk.call (hi.pods p).leased fun h => by cases h)
  | answer p =>
    cases hc : (s.pods p).phase with
    | stopped | subscribing | looping | flushing => simp [hc] at hs
    | calling c =>
      obtain ⟨site, t, command⟩ := c
      cases command with
      | sent | lost => simp [hc] at hs
      | executed ok =>
        simp only [hc] at hs
        cases hs
        exact hi.answered hc
  | fail p =>
    cases hc : (s.pods p).phase with
    | stopped | subscribing | looping | flushing => simp [hc] at hs
    | calling c =>
      simp only [hc] at hs
      cases hs
      exact hi.failed hc
  | subscribe p ok =>
    obtain ⟨-, rfl⟩ := hs
    cases ok with
    | true | false => exact hi.setIdle (fun c h => by cases h) rfl rfl
  | relay p msg =>
    obtain ⟨-, rfl⟩ := hs
    by_cases hr : (s.pods p).workChan.length < cfg.historyWriterBuffer
    · rw [if_pos hr]
      exact hi.setAside rfl rfl rfl
    · rw [if_neg hr]
      exact hi
  | tick p he =>
    obtain ⟨-, rfl⟩ := hs
    have hl (due : Nat) : Leased cfg.lockTTLMs s.now s.lock p { s.pods p with due := due } := (hi.pods p).leased
    cases he with
    | true =>
      rw [if_pos rfl]
      refine hi.setPod (PodOk.call (hl _) fun h => ?_)
      split at h <;> cases h
    | false => exact hi.setPod (PodOk.exitRun (hl _))
  | notify p =>
    obtain ⟨-, rfl⟩ := hs
    exact hi.flush (hi.pods p).leased
  | done p =>
    obtain ⟨-, rfl⟩ := hs
    exact hi.setPod (PodOk.exitRun (hi.pods p).leased)
  | flushed p =>
    obtain ⟨-, rfl⟩ := hs
    exact hi.setIdle (fun c h => by cases h) rfl rfl
  | land p cmd =>
    obtain ⟨-, rfl⟩ := hs
    exact hi.write ht
  | loseWrite p cmd =>
    obtain ⟨-, rfl⟩ := hs
    exact { hi with }

end Inv

/-! ## Every run -/

/-- **Exclusion of the history writers**, for any number of pods, if each `XADD` is executed before the lease of its pod ends. -/
theorem historyWrites_exclusive (cfg : HistoryConfig) (env : GoStr) (as : List Act) (s : State)
    (htimely : Along (step cfg env) Timely State.start as) (hrun : run (step cfg env) State.start as = some s) :
    ∀ w₁ ∈ s.writes, ∀ w₂ ∈ s.writes, w₁.epoch = w₂.epoch → w₁.pod = w₂.pod := by
  have hi : Inv cfg s := run_invariant_along (Inv cfg) (fun _ _ _ hi ht hs => hi.step ht hs) (Inv.start cfg) htimely hrun
  intro w₁ h₁ w₂ h₂ hepoch
  obtain ⟨i, hi₁, hp₁⟩ := hi.writes w₁ h₁
  obtain ⟨j, hj₂, hp₂⟩ := hi.writes w₂ h₂
  have hij : i = j := by omega
  rw [hij] at hp₁
  exact Option.some.inj (hp₁.symm.trans hp₂)

def podA : PodID := str "ws-0"
def podB : PodID := str "ws-1"
def trade : Message := ⟨str "acme.trade", str "1", str "acme", str "", str "", str "trade"⟩
def tradeAdd : XAdd :=
  ⟨str "history:prod:acme:trade", 1000,
    [(str "payload", str "1"), (str "tenant_id", str "acme"), (str "channel", str "trade"), (str "subject", str "acme.trade"),
      (str "coord", str "auto")]⟩

def handOver : List Act :=
  [.start podA, .execute podA, .answer podA, .subscribe podA true, .relay podA trade, .notify podA, .land podA tradeAdd,
    .flushed podA, .start podB, .execute podB, .answer podB, .subscribe podB true, .advance (3 * second), .tick podA true,
    .relay podA trade, .execute podA, .answer podA, .land podA tradeAdd, .flushed podA, .shutdown podA, .done podA,
    .execute podA, .answer podA, .tick podB true, .execute podB, .relay podB trade, .answer podB, .land podB tradeAdd]

theorem historyWrites_exclusive_handOver : ∃ s, run (step .default (str "prod")) State.start handOver = some s ∧
      s.writes.map (fun w => (w.pod, w.epoch)) = [(podA, 1), (podA, 1), (podB, 2)] ∧
      ∀ w₁ ∈ s.writes, ∀ w₂ ∈ s.writes, w₁.epoch = w₂.epoch → w₁.pod = w₂.pod := by
  have hend : (run (step .default (str "prod")) State.start handOver).map (fun s => s.writes.map fun w => (w.pod, w.epoch)) =
      some [(podA, 1), (podA, 1), (podB, 2)] := by decide +kernel
  obtain ⟨s, hrun, hwrites⟩ := map_eq_some_iff.1 hend
  have htimely : Along (step .default (str "prod")) Timely State.start handOver := by decide +kernel
  exact ⟨s, hrun, hwrites, historyWrites_exclusive .default (str "prod") handOver s htimely hrun⟩

def hungRenewal : List Act :=
  [.start podA, .execute podA, .answer podA, .subscribe podA true, .advance (3 * second), .tick podA true, .lose podA,
    .advance (8 * second), .start podB, .execute podB, .answer podB, .subscribe podB true, .relay podB trade, .notify podB,
    .land podB tradeAdd, .relay podA trade, .fail podA, .land podA tradeAdd]

/-- **Bug**: with the default settings a renewal that hangs makes two pods write while one of them owns the lock: its error is
the first of three allowed, so the pod keeps `isActiveWriter` and flushes. -/
theorem hungRenewal_both_write : HistoryConfig.default.Valid ∧
    ∃ s, run (step .default (str "prod")) State.start hungRenewal = some s ∧
      (s.pods podA).isActiveWriter = true ∧ (s.pods podB).isActiveWriter = true ∧
      ∃ w₁ ∈ s.writes, ∃ w₂ ∈ s.writes, w₁.epoch = w₂.epoch ∧ w₁.owner = some podB ∧ w₂.owner = some podB ∧
        w₁.pod ≠ w₂.pod := by
  refine ⟨HistoryConfig.default_valid, ?_⟩
  have hend : (run (step .default (str "prod")) State.start hungRenewal).map
      (fun s => ((s.pods podA).isActiveWriter, (s.pods podB).isActiveWriter, s.writes)) =
      some (true, true, [⟨podB, 2, some podB, tradeAdd⟩, ⟨podA, 2, some podB, tradeAdd⟩]) := by decide +kernel
  obtain ⟨s, hrun, hs⟩ := map_eq_some_iff.1 hend
  obtain ⟨hactiveA, hs⟩ := Prod.mk.inj hs
  obtain ⟨hactiveB, hwrites⟩ := Prod.mk.inj hs
  refine ⟨s, hrun, hactiveA, hactiveB, ⟨podB, 2, some podB, tradeAdd⟩, by simp [hwrites],
    ⟨podA, 2, some podB, tradeAdd⟩, by simp [hwrites], rfl, rfl, rfl, by decide⟩

end Sukko.History
