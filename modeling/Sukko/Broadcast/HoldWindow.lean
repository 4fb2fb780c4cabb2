import Sukko.Lib.Steps
/-
# The hold window of a disruption episode

Every load, store and compare-and-swap is a step.
-/

namespace Sukko.Broadcast.HoldWindow
open Steps List Function

/-- Where a publish is in `inRecoveryEpisode`; `began` is the episode in which it was called. -/
inductive Eval
  | idle
  | called (began : Option ℕ) (now : Int)
  | disrupted (began : Option ℕ) (now : Int)
  | unheld (began : Option ℕ) (now : Int)
deriving DecidableEq

inductive Loop
  | idle
  | arming (start : Int)
  | resetting (start : Int)
  | opening (start : Int)
  | closing
deriving DecidableEq

/-- What a publish was told, and the episode at that time. -/
structure Return where
  began : Option ℕ
  ended : Option ℕ
  now : Int
  held : Bool
deriving DecidableEq

structure State where
  disruptedSince : Int
  heldSince : Int
  clock : Int
  loop : Loop
  evals : ℕ → Eval
  episodes : ℕ
  returns : List Return

def initial (clock : Int) : State := ⟨0, 0, clock, .idle, fun _ => .idle, 0, []⟩

namespace State

def openEpisode (s : State) : Option ℕ := if s.disruptedSince = 0 then none else some s.episodes

def give (s : State) (p : ℕ) (began : Option ℕ) (now : Int) (held : Bool) : State :=
  { s with evals := update s.evals p .idle, returns := s.returns ++ [⟨began, s.openEpisode, now, held⟩] }

def goto (s : State) (p : ℕ) (e : Eval) : State := { s with evals := update s.evals p e }
def mark (s : State) (now : Int) : State := { s with heldSince := if s.heldSince = 0 then now else s.heldSince }

/-- The first publish that was held in an episode. -/
def first (s : State) (k : ℕ) : Option Return := s.returns.find? fun r => r.held && r.ended = some k

end State

inductive Act
  | tick (elapsed : ℕ)
  | call (p : ℕ)
  | loadDisrupted (p : ℕ)
  | loadHeld (p : ℕ)
  | swap (p : ℕ)
  | arm
  | loadArmed
  | storeHeld
  | storeDisrupted
  | clear
deriving DecidableEq

def step (zeroSubscriberWindow : Int) (s : State) : Act → Option State
  | .tick elapsed => some { s with clock := s.clock + elapsed }
  | .call p =>
    match s.evals p with
    | .idle => some (s.goto p (.called s.openEpisode s.clock))
    | _ => none
  | .loadDisrupted p =>
    match s.evals p with
    | .called began now =>
      some (if s.disruptedSince = 0 then s.give p began now false else s.goto p (.disrupted began now))
    | _ => none
  | .loadHeld p =>
    match s.evals p with
    | .disrupted began now =>
      some (if s.heldSince = 0 then s.goto p (.unheld began now)
        else s.give p began now (now - s.heldSince < zeroSubscriberWindow))
    | _ => none
  | .swap p =>
    match s.evals p with
    | .unheld began now =>
      some ((s.mark now).give p began now true)
    | _ => none
  | .arm =>
    match s.loop with
    | .idle => some { s with loop := .arming s.clock }
    | _ => none
  | .loadArmed =>
    match s.loop with
    | .arming start => some { s with loop := if s.disruptedSince = 0 then .resetting start else .opening start }
    | _ => none
  | .storeHeld =>
    match s.loop with
    | .resetting start => some { s with heldSince := 0, loop := .opening start }
    | .closing => some { s with heldSince := 0, loop := .idle }
    | _ => none
  | .storeDisrupted =>
    match s.loop with
    | .opening start =>
      some { s with
        disruptedSince := start
        loop := .idle
        episodes := if s.disruptedSince = 0 then s.episodes + 1 else s.episodes }
    | _ => none
  | .clear =>
    match s.loop with
    | .idle => some { s with disruptedSince := 0, loop := .closing }
    | _ => none

variable {w clock : Int} {s t : State} {a : Act} {p k : ℕ} {b : Option ℕ} {now : Int} {held : Bool} {f : Return}

/-! ## The two variables of the episode -/

def Eval.Timed : Eval → Prop
  | .idle => True
  | .called _ now | .disrupted _ now | .unheld _ now => 0 < now

def Loop.Sound (s : State) : Loop → Prop
  | .idle => True
  | .arming start | .opening start => 0 < start
  | .resetting start => 0 < start ∧ s.disruptedSince = 0
  | .closing => s.disruptedSince = 0

structure Sound (s : State) : Prop where
  clock : 0 < s.clock
  loop : s.loop.Sound s
  evals : ∀ p, (s.evals p).Timed

section
variable (h : Sound s)
include h

theorem Sound.goto {e : Eval} (he : e.Timed) : Sound (s.goto p e) := by
  refine ⟨h.clock, h.loop, fun q => ?_⟩
  rcases eq_or_ne q p with rfl | hq
  · simpa [State.goto] using he
  · simpa [State.goto, hq] using h.evals q

theorem Sound.give : Sound (s.give p b now held) := by
  obtain ⟨hc, hl, he⟩ := h.goto (p := p) (e := .idle) trivial
  exact ⟨hc, hl, he⟩

theorem Sound.evals_of {e : Eval} (he : s.evals p = e) : e.Timed := he ▸ h.evals p
theorem Sound.loop_of {l : Loop} (hl : s.loop = l) : l.Sound s := hl ▸ h.loop

theorem Sound.step (hs : step w s a = some t) : Sound t := by
  cases a with simp only [HoldWindow.step] at hs
  | tick elapsed =>
    cases hs
    exact ⟨by have := h.clock; simp only; omega, h.loop, h.evals⟩
  | call p =>
    split at hs <;> cases hs
    exact h.goto h.clock
  | loadDisrupted p =>
    split at hs <;> cases hs
    rename_i he
    split
    · exact h.give
    · exact h.goto (h.evals_of he : (0 : Int) < _)
  | loadHeld p =>
    split at hs <;> cases hs
    rename_i he
    split
    · exact h.goto (h.evals_of he : (0 : Int) < _)
    · exact h.give
  | swap p =>
    split at hs <;> cases hs
    obtain ⟨hc, hl, he⟩ := h
    exact Sound.give ⟨hc, hl, he⟩
  | arm =>
    split at hs <;> cases hs
    exact ⟨h.clock, h.clock, h.evals⟩
  | loadArmed =>
    split at hs <;> cases hs
    rename_i hl
    refine ⟨h.clock, ?_, h.evals⟩
    by_cases hd : s.disruptedSince = 0 <;> simpa [hd, Loop.Sound] using h.loop_of hl
  | storeHeld =>
    split at hs <;> cases hs
    · rename_i hl
      exact ⟨h.clock, (h.loop_of hl).1, h.evals⟩
    · exact ⟨h.clock, trivial, h.evals⟩
  | storeDisrupted =>
    split at hs <;> cases hs
    exact ⟨h.clock, trivial, h.evals⟩
  | clear =>
    split at hs <;> cases hs
    exact ⟨h.clock, rfl, h.evals⟩

theorem Sound.heldSince_step (hd : s.disruptedSince ≠ 0) (hs : HoldWindow.step w s a = some t) :
    t.heldSince = s.heldSince ∨ ∃ p, a = .swap p ∧ s.heldSince = 0 := by
  cases a with simp only [HoldWindow.step] at hs
  | tick elapsed =>
    cases hs
    exact Or.inl rfl
  | swap p =>
    split at hs <;> cases hs
    by_cases hz : s.heldSince = 0
    · exact Or.inr ⟨p, rfl, hz⟩
    · exact Or.inl (if_neg hz)
  | storeHeld =>
    split at hs <;> rename_i hl <;> cases hs
    · exact absurd (h.loop_of hl).2 hd
    · exact absurd (h.loop_of hl) hd
  | loadDisrupted p | loadHeld p =>
    split at hs <;> cases hs
    split <;> exact Or.inl rfl
  | call p | arm | loadArmed | storeDisrupted | clear =>
    split at hs <;> cases hs
    exact Or.inl rfl

end

/-! ## Whose publish starts the window -/

def Eval.began : Eval → Option ℕ
  | .idle => none
  | .called b _ | .disrupted b _ | .unheld b _ => b

def Loop.opens : Loop → Bool
  | .opening _ => true
  | _ => false

/-- The compare-and-swap of a publish executes in the episode in which it evaluates, or while none is open or being opened. -/
def Timely (s : State) : Act → Prop
  | .swap p => if s.disruptedSince = 0 then s.loop.opens = false else (s.evals p).began = some s.episodes
  | _ => True

instance (s : State) (a : Act) : Decidable (Timely s a) := by
  cases a <;> unfold Timely <;> infer_instance

/-- The start of the window belongs to the first publish held in the open episode. -/
def Anchored (s : State) : Prop :=
  match s.first s.episodes with
  | none => s.heldSince = 0
  | some f => f.now = s.heldSince ∧ 0 < f.now ∧ f.began = some s.episodes

/-- A publish that was let through within one episode came after its window. -/
def Expired (w : Int) (s : State) (r : Return) : Prop :=
  r.held = false → ∀ k, r.began = some k → r.ended = some k →
    ∃ f, s.first k = some f ∧ f.began = some k ∧ f.now + w ≤ r.now

structure Kept (w : Int) (s : State) : Prop extends Sound s where
  reset : s.loop.opens = true → s.disruptedSince = 0 → s.heldSince = 0
  past : ∀ r ∈ s.returns, ∀ k, r.ended = some k → k ≤ s.episodes
  expired : ∀ r ∈ s.returns, Expired w s r

def Inv (w : Int) (s : State) : Prop := Kept w s ∧ (s.disruptedSince ≠ 0 → Anchored s)

theorem first_give : (s.give p b now held).first k =
    (s.first k).or (if held && s.openEpisode = some k then some ⟨b, s.openEpisode, now, held⟩ else none) := by
  rw [State.first, State.give, find?_append, find?_singleton]
  rfl

theorem first_give_of_some (hf : s.first k = some f) : (s.give p b now held).first k = some f := by
  rw [first_give, hf]
  rfl

theorem Expired.give {r : Return} (h : Expired w s r) : Expired w (s.give p b now held) r := by
  intro hr k hb he
  obtain ⟨f, hf, hfk⟩ := h hr k hb he
  exact ⟨f, first_give_of_some hf, hfk⟩

theorem open_of_openEpisode (h : s.openEpisode = some k) : s.disruptedSince ≠ 0 ∧ k = s.episodes := by
  unfold State.openEpisode at h
  split at h
  · cases h
  rename_i hd
  exact ⟨hd, (Option.some.inj h).symm⟩

theorem Kept.give (h : Kept w s) (hx : Expired w (s.give p b now held) ⟨b, s.openEpisode, now, held⟩) :
    Kept w (s.give p b now held) := by
  refine ⟨h.toSound.give, h.reset, forall_mem_append.2 ⟨h.past, forall_mem_singleton.2 fun k hk => ?_⟩,
    forall_mem_append.2 ⟨fun r hr => (h.expired r hr).give, forall_mem_singleton.2 hx⟩⟩
  exact Nat.le_of_eq (open_of_openEpisode hk).2

theorem anchored_give (hf : s.first s.episodes = some f)
    (h : f.now = s.heldSince ∧ 0 < f.now ∧ f.began = some s.episodes) : Anchored (s.give p b now held) := by
  have hg : (s.give p b now held).first (s.give p b now held).episodes = some f := first_give_of_some hf
  rw [Anchored, hg]
  exact h

theorem Kept.first_next (h : Kept w s) : s.first (s.episodes + 1) = none := by
  refine find?_eq_none.2 fun r hr hk => ?_
  have hk : r.held = true ∧ r.ended = some (s.episodes + 1) := by simpa using hk
  have hle := h.past r hr _ hk.2
  omega

section
variable (h : Inv w s)
include h

theorem Inv.goto {e : Eval} (he : e.Timed) : Inv w (s.goto p e) :=
  ⟨⟨h.1.toSound.goto he, h.1.reset, h.1.past, h.1.expired⟩, h.2⟩

theorem Inv.first_of_held (hd : s.disruptedSince ≠ 0) (hz : s.heldSince ≠ 0) :
    ∃ f, s.first s.episodes = some f ∧ f.now = s.heldSince ∧ 0 < f.now ∧ f.began = some s.episodes := by
  have ha := h.2 hd
  unfold Anchored at ha
  split at ha
  · exact absurd ha hz
  · rename_i f hf
    exact ⟨f, hf, ha⟩

theorem Inv.first_of_unheld (hd : s.disruptedSince ≠ 0) (hz : s.heldSince = 0) : s.first s.episodes = none := by
  have ha := h.2 hd
  unfold Anchored at ha
  split at ha
  · assumption
  · omega

theorem Inv.loadDisrupted (hd : s.disruptedSince = 0) : Inv w (s.give p b now false) := by
  refine ⟨h.1.give fun _ k _ he => ?_, fun ho => absurd hd ho⟩
  exact absurd hd (open_of_openEpisode he).1

theorem Inv.loadHeld (hz : s.heldSince ≠ 0) : Inv w (s.give p b now (now - s.heldSince < w)) := by
  refine ⟨h.1.give fun hr k _ he => ?_, fun hd => ?_⟩
  · obtain ⟨hd, rfl⟩ := open_of_openEpisode he
    obtain ⟨f, hf, hnow, -, hfb⟩ := h.first_of_held hd hz
    have hlt : ¬now - s.heldSince < w := of_decide_eq_false hr
    refine ⟨f, first_give_of_some hf, hfb, ?_⟩
    simp only
    omega
  · obtain ⟨f, hf, ha⟩ := h.first_of_held hd hz
    exact anchored_give hf ha

theorem Inv.swap (hnow : 0 < now) (ht : if s.disruptedSince = 0 then s.loop.opens = false else b = some s.episodes) :
    Inv w ((s.mark now).give p b now true) := by
  have hkept : Kept w (s.mark now) := by
    refine ⟨⟨h.1.clock, h.1.loop, h.1.evals⟩, fun ho hd => ?_, h.1.past, h.1.expired⟩
    change s.disruptedSince = 0 at hd
    rw [if_pos hd] at ht
    exact absurd (ht.symm.trans ho) Bool.false_ne_true
  refine ⟨hkept.give fun hr => (nomatch hr), fun hd => ?_⟩
  change s.disruptedSince ≠ 0 at hd
  rw [if_neg hd] at ht
  by_cases hz : s.heldSince = 0
  · -- This is the first held publish of the episode.
    have ho : (s.mark now).openEpisode = some s.episodes := if_neg hd
    have hm : (s.mark now).heldSince = now := if_pos hz
    have hn : (s.mark now).first s.episodes = none := h.first_of_unheld hd hz
    have hg : ((s.mark now).give p b now true).first s.episodes = some ⟨b, some s.episodes, now, true⟩ := by
      rw [first_give, hn, ho]
      simp
    change match ((s.mark now).give p b now true).first s.episodes with | none => _ | some f => _
    rw [hg]
    exact ⟨hm.symm, hnow, ht⟩
  · obtain ⟨f, hf, ha⟩ := h.first_of_held hd hz
    have hm : (s.mark now).heldSince = s.heldSince := if_neg hz
    exact anchored_give (s := s.mark now) hf (by rw [hm]; exact ha)

theorem Inv.storeDisrupted {start : Int} (hl : s.loop = .opening start) (hs : step w s .storeDisrupted = some t) : Inv w t := by
  have hsound := h.1.toSound.step hs
  simp only [step, hl] at hs
  cases hs
  by_cases hd : s.disruptedSince = 0
  · refine ⟨⟨hsound, fun ho => (nomatch ho), fun r hr k hk => ?_, h.1.expired⟩, fun _ => ?_⟩
    · simp only [hd, if_true]
      exact Nat.le_succ_of_le (h.1.past r hr k hk)
    · have hz : s.heldSince = 0 := h.1.reset (by rw [hl]; rfl) hd
      have hn : s.first (s.episodes + 1) = none := h.1.first_next
      simp only [Anchored, hd, if_true]
      change match s.first (s.episodes + 1) with | none => _ | some f => _
      rw [hn]
      exact hz
  · refine ⟨⟨hsound, fun ho => (nomatch ho), fun r hr k hk => ?_, h.1.expired⟩, fun _ => ?_⟩
    · simp only [hd, if_false]
      exact h.1.past r hr k hk
    · simp only [Anchored, hd, if_false]
      exact h.2 hd

theorem Inv.step (ht : Timely s a) (hs : step w s a = some t) : Inv w t := by
  have hsound := h.1.toSound.step hs
  cases a with simp only [HoldWindow.step] at hs
  | tick elapsed =>
    cases hs
    exact ⟨⟨hsound, h.1.reset, h.1.past, h.1.expired⟩, h.2⟩
  | call p =>
    split at hs <;> cases hs
    exact h.goto h.1.clock
  | loadDisrupted p =>
    split at hs <;> cases hs
    rename_i he
    split
    · exact h.loadDisrupted ‹_›
    · exact h.goto (h.1.evals_of he : (0 : Int) < _)
  | loadHeld p =>
    split at hs <;> cases hs
    rename_i he
    split
    · exact h.goto (h.1.evals_of he : (0 : Int) < _)
    · exact h.loadHeld ‹_›
  | swap p =>
    split at hs <;> cases hs
    rename_i he
    simp only [Timely, he] at ht
    exact h.swap (h.1.evals_of he) ht
  | loadArmed =>
    split at hs <;> cases hs
    refine ⟨⟨hsound, fun ho hd => ?_, h.1.past, h.1.expired⟩, h.2⟩
    change s.disruptedSince = 0 at hd
    simp [hd, Loop.opens] at ho
  | storeHeld =>
    split at hs <;> rename_i hl <;> cases hs
    · exact ⟨⟨hsound, fun _ _ => rfl, h.1.past, h.1.expired⟩, fun hd => absurd (h.1.loop_of hl).2 hd⟩
    · exact ⟨⟨hsound, fun _ _ => rfl, h.1.past, h.1.expired⟩, fun hd => absurd (h.1.loop_of hl) hd⟩
  | storeDisrupted =>
    have hs' := hs
    split at hs'
    · exact h.storeDisrupted ‹_› hs
    · cases hs'
  | arm =>
    split at hs <;> cases hs
    exact ⟨⟨hsound, fun ho => (nomatch ho), h.1.past, h.1.expired⟩, h.2⟩
  | clear =>
    split at hs <;> cases hs
    exact ⟨⟨hsound, fun ho => (nomatch ho), h.1.past, h.1.expired⟩, fun hd => absurd rfl hd⟩

end

theorem sound_initial (h0 : 0 < clock) : Sound (initial clock) := ⟨h0, trivial, fun _ => trivial⟩

theorem inv_initial (h0 : 0 < clock) : Inv w (initial clock) :=
  ⟨⟨sound_initial h0, fun _ _ => rfl, fun _ hr => (nomatch hr), fun _ hr => (nomatch hr)⟩, fun hd => absurd rfl hd⟩

/-- **The window is measured per episode** in every run in which no publish starts the window of an episode that it did not begin
in. In every run, the start of a window is written only while it is unset, and never by arming. -/
theorem window_within_episode (w clock : Int) (h0 : 0 < clock) (acts : List Act) (s : State)
    (hrun : run (step w) (initial clock) acts = some s) :
    (Along (step w) Timely (initial clock) acts → ∀ r ∈ s.returns, r.held = false → ∀ k, r.began = some k → r.ended = some k →
      ∃ f, s.first k = some f ∧ f.began = some k ∧ f.now + w ≤ r.now) ∧
    ∀ a t, step w s a = some t → s.disruptedSince ≠ 0 → t.heldSince = s.heldSince ∨ ∃ p, a = .swap p ∧ s.heldSince = 0 := by
  constructor
  · intro ht r hr
    have hinv : Inv w s := run_invariant_along (Inv w) (fun _ _ _ h ht hs => h.step ht hs) (inv_initial h0) ht hrun
    exact hinv.1.expired r hr
  · intro a t hs hd
    have hsound : Sound s := run_invariant Sound (fun _ _ _ h hs => h.step hs) (sound_initial h0) hrun
    exact hsound.heldSince_step hd hs

def timely : List Act :=
  [.arm, .loadArmed, .storeHeld, .storeDisrupted, .call 0, .loadDisrupted 0, .loadHeld 0, .swap 0, .tick 500,
    .call 1, .loadDisrupted 1, .loadHeld 1]

theorem window_within_episode_timely : ∃ s, run (step 500) (initial 1) timely = some s ∧
    Along (step 500) Timely (initial 1) timely ∧ ⟨some 1, some 1, 501, false⟩ ∈ s.returns ∧
    ∃ f, s.first 1 = some f ∧ f.began = some 1 ∧ f.now + 500 ≤ 501 := by
  refine ⟨_, rfl, by decide +kernel, by decide +kernel, ?_⟩
  exact (window_within_episode 500 1 (by decide) timely _ rfl).1 (by decide +kernel) ⟨some 1, some 1, 501, false⟩ (by decide +kernel)
    rfl 1 rfl rfl

def suspended : List Act :=
  [.arm, .loadArmed, .storeHeld, .storeDisrupted, .call 0, .loadDisrupted 0, .loadHeld 0, .clear, .storeHeld, .tick 1000,
    .arm, .loadArmed, .storeHeld, .storeDisrupted, .swap 0, .tick 1, .call 1, .loadDisrupted 1, .loadHeld 1]

/-- **Bug**: the suspended publish plants the time of the first episode, and a publish one tick into the second is let through.
-/
theorem suspended_publish_expires_window : ∃ s, run (step 500) (initial 1) suspended = some s ∧
    (⟨some 2, some 2, 1002, false⟩ : Return) ∈ s.returns ∧ s.first 2 = some ⟨some 1, some 2, 1, true⟩ ∧
    s.disruptedSince = 1001 :=
  ⟨_, rfl, by decide +kernel, by decide +kernel, rfl⟩

end Sukko.Broadcast.HoldWindow
