import Sukko.Broadcast.References
/-
# Convergence of the Valkey bus is truthful

A generation stands for the desired state it was bumped to: equal generations mean equal states, in the middle of a later pass
too (`Tracked`).
-/

namespace Sukko.Broadcast
open Steps Finset

def Reached (tenants : Finset GoStr) (all : Bool) (p : Pass) : Prop :=
  match p.stage with
  | .missing todo => p.desired ⊆ todo ∪ tenants
  | .stale todo => p.desired ⊆ tenants ∧ tenants ⊆ todo ∪ p.desired
  | .psubscribe => tenants = p.desired
  | .punsubscribe => tenants = p.desired ∧ (p.wantAll = true → all = true)
  | .finish => tenants = p.desired ∧ all = p.wantAll

structure PassInv (b : Bus) (p : Pass) : Prop where
  lower : b.confirmedGen ≤ p.gen
  upper : p.gen ≤ b.desiredGen
  fresh : p.gen = b.desiredGen → p.desired = b.desired ∧ p.wantAll = b.wantAll
  abort : p.abort = true → p.ok = false
  todo : ∀ todo, p.stage = .missing todo → todo ⊆ p.desired
  reach : p.ok = true → b.cancelled = false → Reached b.confirmedTenants b.confirmedAll p

structure Tracked (b : Bus) : Prop where
  le : b.confirmedGen ≤ b.desiredGen
  truthful : b.confirmedGen = b.desiredGen → b.confirmedTenants = b.desired ∧ b.confirmedAll = b.wantAll
  pass : ∀ p, b.loop = .pass p → PassInv b p

theorem tracked_init : Tracked Bus.init where
  le := le_rfl
  truthful _ := ⟨rfl, rfl⟩
  pass p hp := by cases hp

namespace Tracked
variable {b b' : Bus}

variable (h : Tracked b)
include h

theorem declares (hd : Declares b b') : Tracked b' := by
  have hps : ∀ p, b'.loop = .pass p → PassInv b p := fun p hp => h.pass p (hd.loop ▸ hp)
  obtain ⟨hg, hds, hw⟩ | ⟨hg, -⟩ := hd.desired
  · refine ⟨by rw [hd.gen, hg]; exact h.le, ?_, fun p hp => ?_⟩
    · rw [hd.gen, hg, hd.tenants, hd.all, hds, hw]; exact h.truthful
    · obtain ⟨hlo, hup, hf, ha, ht, hr⟩ := hps p hp
      refine ⟨by rw [hd.gen]; exact hlo, by rw [hg]; exact hup, ?_, ha, ht, ?_⟩
      · rw [hg, hds, hw]; exact hf
      · rw [hd.ctx, hd.tenants, hd.all]; exact hr
  · -- a new generation is above everything a pass or the confirmed state carries
    have hle := h.le
    refine ⟨by rw [hd.gen, hg]; omega, fun heq => ?_, fun p hp => ?_⟩
    · rw [hd.gen, hg] at heq; omega
    · obtain ⟨hlo, hup, -, ha, ht, hr⟩ := hps p hp
      refine ⟨by rw [hd.gen]; exact hlo, by rw [hg]; omega, fun heq => ?_, ha, ht, ?_⟩
      · rw [hg] at heq; omega
      · rw [hd.ctx, hd.tenants, hd.all]; exact hr

theorem waiting {l : Loop} (hl : ∀ p, l ≠ .pass p) (wake : Bool) (retry : Option Nat) :
    Tracked { b with subWake := wake, retry := retry, loop := l } :=
  ⟨h.le, h.truthful, fun p hp => absurd hp (hl p)⟩

theorem cancel : Tracked { b with cancelled := true } where
  le := h.le
  truthful := h.truthful
  pass p hp := by
    obtain ⟨hlo, hup, hf, ha, ht, -⟩ := h.pass p hp
    exact ⟨hlo, hup, hf, ha, ht, fun _ hc => by cases hc⟩

theorem disconnect : Tracked { b.reinitDedicatedClient with loop := .converge } where
  le := Nat.le_succ_of_le h.le
  truthful heq := by
    have hlt : b.confirmedGen < b.desiredGen + 1 := Nat.lt_succ_of_le h.le
    exact absurd heq (Nat.ne_of_lt hlt)
  pass p hp := by cases hp

theorem snapshot : Tracked { b with loop := .pass b.snapshot } where
  le := h.le
  truthful := h.truthful
  pass p hp := by
    cases hp
    have ha : ∀ todo, Stage.missing b.desired = .missing todo → todo ⊆ b.desired := by
      rintro todo ⟨⟩
      exact Finset.Subset.refl _
    exact ⟨h.le, le_rfl, fun _ => ⟨rfl, rfl⟩, nofun, ha, fun _ _ => subset_union_left⟩

theorem advance {p p' : Pass} (hl : b.loop = .pass p) (tenants : Finset GoStr) (all : Bool)
    (hg : p'.gen = p.gen) (hd : p'.desired = p.desired) (hw : p'.wantAll = p.wantAll)
    (hab : p'.abort = true → p'.ok = false)
    (htd : ∀ todo, p'.stage = .missing todo → todo ⊆ p.desired)
    (hs : b.confirmedTenants = p.desired → b.confirmedAll = p.wantAll → tenants = b.confirmedTenants ∧ all = b.confirmedAll)
    (hr : p'.ok = true → b.cancelled = false → Reached tenants all p') :
    Tracked { b with confirmedTenants := tenants, confirmedAll := all, loop := .pass p' } := by
  have hp := h.pass p hl
  refine ⟨h.le, fun heq => ?_, fun q hq => ?_⟩
  · obtain ⟨ht, ha⟩ := h.truthful heq
    have hgp : p.gen = b.desiredGen := le_antisymm hp.upper (heq ▸ hp.lower)
    obtain ⟨hpd, hpw⟩ := hp.fresh hgp
    obtain ⟨rfl, rfl⟩ := hs (ht.trans hpd.symm) (ha.trans hpw.symm)
    exact ⟨ht, ha⟩
  · cases hq
    refine ⟨hg ▸ hp.lower, hg ▸ hp.upper, ?_, hab, ?_, hr⟩
    · rw [hg, hd, hw]; exact hp.fresh
    · rw [hd]; exact htd

end Tracked

namespace Tracked
variable {b b' : Bus} {p : Pass} {ans : Answer} {todo : Finset GoStr}

theorem visitMissing (h : Tracked b) {t : GoStr} (hl : b.loop = .pass p) (hs : p.stage = .missing todo) (ht : t ∈ todo) :
    Tracked (b.visitMissing p todo t ans) := by
  have hp := h.pass p hl
  have htd := hp.todo todo hs
  have he : ∀ todo', Stage.missing (todo.erase t) = .missing todo' → todo' ⊆ p.desired := by
    rintro todo' ⟨⟩
    exact (erase_subset t todo).trans htd
  have hr : p.ok = true → b.cancelled = false → p.desired ⊆ todo ∪ b.confirmedTenants := by
    intro hok hc
    have := hp.reach hok hc
    rwa [Reached, hs] at this
  unfold Bus.visitMissing
  split
  · rename_i hcn
    refine h.advance hl _ _ rfl rfl rfl hp.abort he (fun _ _ => ⟨rfl, rfl⟩) fun hok hc t' ht' => ?_
    have hmm := hr hok hc ht'
    simp only [mem_union, mem_erase] at hmm ⊢
    by_cases htt : t' = t
    · exact .inr (htt ▸ hcn)
    · exact hmm.imp_left fun hm => ⟨htt, hm⟩
  · rename_i hcn
    refine h.advance hl _ _ (by simp) (by simp) (by simp) (handleFailure_abort hp.abort) he
      (fun ha _ => absurd (ha ▸ htd ht) hcn) fun hok hc t' ht' => ?_
    obtain ⟨rfl, hok⟩ := handleFailure_ok hok
    have hmm := hr hok hc ht'
    simp only [if_true, mem_union, mem_erase, mem_insert] at hmm ⊢
    by_cases htt : t' = t
    · exact .inr (.inl htt)
    · exact hmm.imp (fun hm => ⟨htt, hm⟩) .inr

theorem visitStale (h : Tracked b) {t : GoStr} (hl : b.loop = .pass p) (hs : p.stage = .stale todo) :
    Tracked (b.visitStale p todo t ans) := by
  have hp := h.pass p hl
  have hr : p.ok = true → b.cancelled = false → p.desired ⊆ b.confirmedTenants ∧ b.confirmedTenants ⊆ todo ∪ p.desired := by
    intro hok hc
    have := hp.reach hok hc
    rwa [Reached, hs] at this
  unfold Bus.visitStale
  split
  · rename_i hw
    refine h.advance hl _ _ rfl rfl rfl hp.abort (by simp) (fun _ _ => ⟨rfl, rfl⟩) fun hok hc => ?_
    obtain ⟨hsb, hsp⟩ := hr hok hc
    refine ⟨hsb, fun t' ht' => ?_⟩
    have hmm := hsp ht'
    simp only [mem_union, mem_erase] at hmm ⊢
    by_cases htt : t' = t
    · exact .inr (htt ▸ hw)
    · exact hmm.imp_left fun hm => ⟨htt, hm⟩
  · rename_i hw
    refine h.advance hl _ _ (by simp) (by simp) (by simp) (handleFailure_abort hp.abort) (by simp)
      (fun ha _ => ⟨?_, rfl⟩) fun hok hc => ?_
    · have hn : t ∉ b.confirmedTenants := ha ▸ hw
      split
      · exact erase_eq_of_notMem hn
      · rfl
    · obtain ⟨rfl, hok⟩ := handleFailure_ok hok
      obtain ⟨hsb, hsp⟩ := hr hok hc
      show p.desired ⊆ b.confirmedTenants.erase t ∧ b.confirmedTenants.erase t ⊆ todo.erase t ∪ p.desired
      refine ⟨fun t' ht' => ?_, fun t' ht' => ?_⟩
      · exact mem_erase.2 ⟨fun htt => hw (htt ▸ ht'), hsb ht'⟩
      · obtain ⟨hne, hmm⟩ := mem_erase.1 ht'
        have := hsp hmm
        simp only [mem_union, mem_erase] at this ⊢
        exact this.imp_left fun hm => ⟨hne, hm⟩

theorem todo_empty (hp : PassInv b p) (he : todo = ∅ ∨ p.abort = true ∨ b.cancelled = true) (hok : p.ok = true)
    (hc : b.cancelled = false) : todo = ∅ := by
  rcases he with h | h | h
  · exact h
  · rw [hp.abort h] at hok; cases hok
  · rw [h] at hc; cases hc

variable (h : Tracked b)
include h

section
variable (hl : b.loop = .pass p)
include hl

theorem leaveMissing (hs : p.stage = .missing todo) (he : todo = ∅ ∨ p.abort = true ∨ b.cancelled = true) :
    Tracked { b with loop := .pass { p with stage := .stale b.confirmedTenants } } := by
  have hp := h.pass p hl
  refine h.advance hl _ _ rfl rfl rfl hp.abort (by simp) (fun _ _ => ⟨rfl, rfl⟩) fun hok hc => ?_
  have hr := hp.reach hok hc
  rw [Reached, hs, todo_empty hp he hok hc] at hr
  exact ⟨by simpa using hr, subset_union_left⟩

theorem leaveStale (hs : p.stage = .stale todo) (he : todo = ∅ ∨ p.abort = true ∨ b.cancelled = true) :
    Tracked { b with loop := .pass { p with stage := .psubscribe } } := by
  have hp := h.pass p hl
  refine h.advance hl _ _ rfl rfl rfl hp.abort (by simp) (fun _ _ => ⟨rfl, rfl⟩) fun hok hc => ?_
  have hr := hp.reach hok hc
  rw [Reached, hs, todo_empty hp he hok hc] at hr
  exact (by simpa using hr.2 : b.confirmedTenants ⊆ p.desired).antisymm hr.1

theorem psubscribe (hs : p.stage = .psubscribe) : Tracked (b.psubscribe p ans) := by
  have hp := h.pass p hl
  have hr : p.ok = true → b.cancelled = false → b.confirmedTenants = p.desired := by
    intro hok hc
    have := hp.reach hok hc
    rwa [Reached, hs] at this
  unfold Bus.psubscribe
  split
  · rename_i hcn
    simp only [Bool.and_eq_true, Bool.not_eq_true'] at hcn
    obtain ⟨⟨⟨-, hw⟩, hal⟩, -⟩ := hcn
    refine h.advance hl _ _ (by simp) (by simp) (by simp) (handleFailure_abort hp.abort) (by simp)
      (fun _ ha => ?_) fun hok hc => ?_
    · rw [hal, hw] at ha; cases ha
    · obtain ⟨rfl, hok⟩ := handleFailure_ok hok
      exact ⟨hr hok hc, fun _ => rfl⟩
  · rename_i hcn
    refine h.advance hl _ _ rfl rfl rfl hp.abort (by simp) (fun _ _ => ⟨rfl, rfl⟩) fun hok hc => ?_
    refine ⟨hr hok hc, fun (hw : p.wantAll = true) => ?_⟩
    have hab : p.abort = false := Bool.eq_false_iff.2 fun ha => by rw [hp.abort ha] at hok; cases hok
    simpa [hab, hw, hc] using hcn

theorem punsubscribe (hs : p.stage = .punsubscribe) : Tracked (b.punsubscribe p ans) := by
  have hp := h.pass p hl
  have hr : p.ok = true → b.cancelled = false →
      b.confirmedTenants = p.desired ∧ (p.wantAll = true → b.confirmedAll = true) := by
    intro hok hc
    have := hp.reach hok hc
    rwa [Reached, hs] at this
  unfold Bus.punsubscribe
  split
  · rename_i hcn
    simp only [Bool.and_eq_true, Bool.not_eq_true'] at hcn
    obtain ⟨⟨⟨-, hw⟩, hal⟩, -⟩ := hcn
    refine h.advance hl _ _ (by simp) (by simp) (by simp) (handleFailure_abort hp.abort) (by simp)
      (fun _ ha => ?_) fun hok hc => ?_
    · rw [hal, hw] at ha; cases ha
    · obtain ⟨rfl, hok⟩ := handleFailure_ok hok
      exact ⟨(hr hok hc).1, hw.symm⟩
  · rename_i hcn
    refine h.advance hl _ _ rfl rfl rfl hp.abort (by simp) (fun _ _ => ⟨rfl, rfl⟩) fun hok hc => ?_
    obtain ⟨ht, hon⟩ := hr hok hc
    refine ⟨ht, ?_⟩
    show b.confirmedAll = p.wantAll
    have hab : p.abort = false := Bool.eq_false_iff.2 fun ha => by rw [hp.abort ha] at hok; cases hok
    cases hw : p.wantAll with
    | true => exact hon hw
    | false => simpa [hab, hw, hc] using hcn

theorem finish (hs : p.stage = .finish) : Tracked (b.finish p) := by
  have hp := h.pass p hl
  unfold Bus.finish
  split
  · exact ⟨h.le, h.truthful, fun q hq => by cases hq⟩
  rename_i hc
  split
  · rename_i hok
    refine ⟨hp.upper, fun heq => ?_, fun q hq => by cases hq⟩
    have hr := hp.reach hok (Bool.eq_false_iff.2 hc)
    rw [Reached, hs] at hr
    obtain ⟨hd, hw⟩ := hp.fresh heq
    exact ⟨hr.1.trans hd, hr.2.trans hw⟩
  · exact ⟨h.le, h.truthful, fun q hq => by cases hq⟩

end

theorem loops (hb : Loops b b') : Tracked b' := by
  cases hb with
  | cancel => exact h.cancel
  | moved l _ _ _ hto => exact h.waiting hto b.subWake b.retry
  | wake hl => exact h.waiting (by simp) false b.retry
  | retry hl => exact h.waiting (by simp) b.subWake none
  | disconnect hl => exact h.disconnect
  | snapshot hl => exact h.snapshot
  | missing p todo t ans hl hs ht => exact h.visitMissing hl hs ht
  | stale p todo t ans hl hs ht => exact h.visitStale hl hs
  | leaveMissing p todo hl hs he => exact h.leaveMissing hl hs he
  | leaveStale p todo hl hs he => exact h.leaveStale hl hs he
  | psubscribe p ans hl hs => exact h.psubscribe hl hs
  | punsubscribe p ans hl hs => exact h.punsubscribe hl hs
  | finish p hl hs => exact h.finish hl hs

end Tracked

theorem tracked_run {as : List Act} {b : Bus} (hr : run step Bus.init as = some b) : CountInv b ∧ Tracked b := by
  refine run_invariant (fun b => CountInv b ∧ Tracked b) ?_ ⟨countInv_init, tracked_init⟩ hr
  rintro b a b' ⟨hc, ht⟩ hs
  rcases step_cases hs with h | h
  · exact ⟨hc.calls h, ht.declares (h.declares hc)⟩
  · exact ⟨hc.loops h, ht.loops h⟩

/-- **Convergence is truthful.** In every run equal generations mean that the confirmed tenants are those with a reference and
that the pattern is subscribed exactly when someone wants it. -/
theorem subscriptionsConverged_truthful {as : List Act} {b : Bus} (hrun : run step Bus.init as = some b)
    (hconv : b.subscriptionsConverged = true) :
    (∀ t, t ∈ b.confirmedTenants ↔ 0 < b.refCount (.tenant t)) ∧ (b.confirmedAll = true ↔ 0 < b.subscribeAllRefCount) := by
  obtain ⟨hcount, htrack⟩ := tracked_run hrun
  have hgen : b.confirmedGen = b.desiredGen := by simpa [Bus.subscriptionsConverged] using hconv
  obtain ⟨htenants, hall⟩ := htrack.truthful hgen
  constructor
  · intro t
    rw [htenants]
    exact hcount.mem_desired_iff t
  · rw [hall, Bus.wantAll, decide_eq_true_iff]

def convergedRun : List Act :=
  [.subscribe (str "acme"), .resume (.counting (.tenant (str "acme")) 0), .run, .check,
    .resume (.signalling (some 0)), .wake, .snapshot, .visit (str "acme") .serverError, .leave, .leave,
    .pattern .ok, .pattern .ok, .finish, .check, .disconnect, .snapshot, .subscribeAll,
    .visit (str "acme") .ok, .leave, .resume (.counting .all 1), .visit (str "acme") .ok, .leave, .pattern .ok, .pattern .ok,
    .finish, .check, .resume (.signalling (some 1)), .wake, .snapshot, .visit (str "acme") .ok, .leave,
    .visit (str "acme") .ok, .leave, .pattern .ok, .pattern .ok, .finish]

theorem subscriptionsConverged_truthful_convergedRun : ∃ b, run step Bus.init convergedRun = some b ∧
    b.subscriptionsConverged = true ∧ (∀ t, t ∈ b.confirmedTenants ↔ 0 < b.refCount (.tenant t)) ∧
      (b.confirmedAll = true ↔ 0 < b.subscribeAllRefCount) :=
  ⟨_, rfl, by decide, @subscriptionsConverged_truthful convergedRun _ rfl (by decide)⟩

end Sukko.Broadcast
