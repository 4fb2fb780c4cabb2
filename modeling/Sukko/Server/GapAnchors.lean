import Sukko.Lib.Steps
import Sukko.Server.StreamFrames
/-
# Where a gap frame lets the client replay from

A gap frame carries the smallest and the largest lost number, but the position of the first notification it was made from; one
of another channel that ends the coalescing goes back in at the end (`InOrder`).
-/

namespace Sukko.Server.Gaps
open Steps List

inductive Pump
  | select
  | coalescing (merged : GapNotification) (parts : List GapNotification)
  | coalesced (merged : GapNotification) (parts : List GapNotification) (lost : Option GapNotification)
  | sending (merged : GapNotification) (parts : List GapNotification)
deriving DecidableEq

structure State where
  queue : List GapNotification
  pump : Pump
  seq : Nat
  drops : List GapNotification
  frames : List (GapNotification × List GapNotification)
deriving DecidableEq

inductive Act
  | drop (skipped : Nat) (channel lastPos : GoStr) (ts : Nat)
  | take
  | coalesce
  | requeue
  | send (room : Bool)
deriving DecidableEq

def init : State := ⟨[], .select, 0, [], []⟩

def merge (merged gap : GapNotification) : GapNotification :=
  { merged with fromSeq := min merged.fromSeq gap.fromSeq, toSeq := max merged.toSeq gap.toSeq }

def step (cap : Nat) (s : State) : Act → Option State
  | .drop skipped channel lastPos ts =>
    let seq := s.seq + skipped + 1
    let gap : GapNotification := ⟨channel, seq, seq, lastPos, ts⟩
    some { s with
      seq := seq
      drops := s.drops ++ [gap]
      queue := if s.queue.length < cap then s.queue ++ [gap] else s.queue }
  | .take =>
    match s.pump, s.queue with
    | .select, gap :: queue => some { s with queue := queue, pump := .coalescing gap [gap] }
    | _, _ => none
  | .coalesce =>
    match s.pump, s.queue with
    | .coalescing merged parts, [] => some { s with pump := .coalesced merged parts none }
    | .coalescing merged parts, gap :: queue =>
      if gap.channel ≠ merged.channel then some { s with queue := queue, pump := .coalesced merged parts (some gap) }
      else some { s with queue := queue, pump := .coalescing (merge merged gap) (parts ++ [gap]) }
    | _, _ => none
  | .requeue =>
    match s.pump with
    | .coalesced merged parts lost =>
      some { s with
        queue := if s.queue.length < cap then s.queue ++ lost.toList else s.queue
        pump := .sending merged parts }
    | _ => none
  | .send room =>
    match s.pump with
    | .sending merged parts =>
      some { s with pump := .select, frames := if room then s.frames ++ [(merged, parts)] else s.frames }
    | _ => none

inductive Moves (cap : Nat) (s : State) : Act → State → Prop
  | drop (skipped : Nat) (channel lastPos : GoStr) (ts : Nat) (gap : GapNotification)
      (hgap : gap = ⟨channel, s.seq + skipped + 1, s.seq + skipped + 1, lastPos, ts⟩) :
      Moves cap s (.drop skipped channel lastPos ts) { s with
        seq := s.seq + skipped + 1
        drops := s.drops ++ [gap]
        queue := if s.queue.length < cap then s.queue ++ [gap] else s.queue }
  | take (gap : GapNotification) (queue : List GapNotification) (hp : s.pump = .select) (hq : s.queue = gap :: queue) :
      Moves cap s .take { s with queue := queue, pump := .coalescing gap [gap] }
  | drained (merged : GapNotification) (parts : List GapNotification) (hp : s.pump = .coalescing merged parts)
      (hq : s.queue = []) : Moves cap s .coalesce { s with pump := .coalesced merged parts none }
  | other (merged gap : GapNotification) (parts queue : List GapNotification) (hp : s.pump = .coalescing merged parts)
      (hq : s.queue = gap :: queue) (hch : gap.channel ≠ merged.channel) :
      Moves cap s .coalesce { s with queue := queue, pump := .coalesced merged parts (some gap) }
  | same (merged gap : GapNotification) (parts queue : List GapNotification) (hp : s.pump = .coalescing merged parts)
      (hq : s.queue = gap :: queue) (hch : gap.channel = merged.channel) :
      Moves cap s .coalesce { s with queue := queue, pump := .coalescing (merge merged gap) (parts ++ [gap]) }
  | requeue (merged : GapNotification) (parts : List GapNotification) (lost : Option GapNotification)
      (hp : s.pump = .coalesced merged parts lost) :
      Moves cap s .requeue { s with
        queue := if s.queue.length < cap then s.queue ++ lost.toList else s.queue
        pump := .sending merged parts }
  | send (room : Bool) (merged : GapNotification) (parts : List GapNotification) (hp : s.pump = .sending merged parts) :
      Moves cap s (.send room) { s with
        pump := .select
        frames := if room then s.frames ++ [(merged, parts)] else s.frames }

variable {a : Act} {cap : Nat} {s s' : State}

theorem step_moves (hs : step cap s a = some s') : Moves cap s a s' := by
  cases a with simp only [step] at hs
  | drop skipped channel lastPos ts =>
    cases hs
    exact .drop skipped channel lastPos ts _ rfl
  | take =>
    split at hs
    · next gap queue hp hq =>
      cases hs
      exact .take gap queue hp hq
    · cases hs
  | coalesce =>
    split at hs
    · next merged parts hp hq =>
      cases hs
      exact .drained merged parts hp hq
    · next merged parts gap queue hp hq =>
      by_cases hch : gap.channel = merged.channel
      · simp only [hch, ne_eq, not_true_eq_false, if_false] at hs
        cases hs
        exact .same merged gap parts queue hp hq hch
      · simp only [hch, ne_eq, not_false_eq_true, if_true] at hs
        cases hs
        exact .other merged gap parts queue hp hq hch
    · cases hs
  | requeue =>
    split at hs
    · next merged parts lost hp =>
      cases hs
      exact .requeue merged parts lost hp
    · cases hs
  | send room =>
    split at hs
    · next merged parts hp =>
      cases hs
      exact .send room merged parts hp
    · cases hs

def Pump.lost : Pump → Option GapNotification
  | .coalesced _ _ lost => lost
  | _ => none

/-- A notification goes back into `gapChan` only when none of its channel is queued. -/
def InOrder (cap : Nat) (s : State) : Act → Prop
  | .requeue => ∀ lost ∈ s.pump.lost, s.queue.length < cap → ∀ gap ∈ s.queue, gap.channel ≠ lost.channel
  | _ => True

instance (cap : Nat) (s : State) (a : Act) : Decidable (InOrder cap s a) := by
  cases a <;> unfold InOrder <;> infer_instance

/-- The frame reports the numbers of the messages it was made from. -/
structure Spans (frame : GapNotification) (parts : List GapNotification) : Prop where
  channel : ∀ g ∈ parts, g.channel = frame.channel
  lower : ∀ g ∈ parts, frame.fromSeq ≤ g.fromSeq
  upper : ∀ g ∈ parts, g.toSeq ≤ frame.toSeq
  first : ∃ g ∈ parts, g.fromSeq = frame.fromSeq
  last : ∃ g ∈ parts, g.toSeq = frame.toSeq

/-- The position of the frame is that of the dropped message with the smallest number. -/
def Anchored (drops : List GapNotification) (frame : GapNotification) : Prop :=
  ∃ g ∈ drops, g.channel = frame.channel ∧ g.fromSeq = frame.fromSeq ∧ g.lastPos = frame.lastPos

/-! ## What a frame reports -/

theorem Spans.single (g : GapNotification) : Spans g [g] where
  channel := by simp
  lower := by simp
  upper := by simp
  first := by simp
  last := by simp

theorem Spans.merge {frame gap : GapNotification} {parts : List GapNotification} (h : Spans frame parts)
    (hch : gap.channel = frame.channel) : Spans (merge frame gap) (parts ++ [gap]) where
  channel := by
    rw [forall_mem_append, forall_mem_singleton]
    exact ⟨h.channel, hch⟩
  lower := by
    rw [forall_mem_append, forall_mem_singleton]
    exact ⟨fun g hg => Nat.le_trans (Nat.min_le_left _ _) (h.lower g hg), Nat.min_le_right _ _⟩
  upper := by
    rw [forall_mem_append, forall_mem_singleton]
    exact ⟨fun g hg => Nat.le_trans (h.upper g hg) (Nat.le_max_left _ _), Nat.le_max_right _ _⟩
  first := by
    obtain ⟨g, hg, heq⟩ := h.first
    rcases Nat.le_total frame.fromSeq gap.fromSeq with hle | hle
    · exact ⟨g, mem_append_left _ hg, by simp only [Gaps.merge]; omega⟩
    · exact ⟨gap, by simp, by simp only [Gaps.merge]; omega⟩
  last := by
    obtain ⟨g, hg, heq⟩ := h.last
    rcases Nat.le_total frame.toSeq gap.toSeq with hle | hle
    · exact ⟨gap, by simp, by simp only [Gaps.merge]; omega⟩
    · exact ⟨g, mem_append_left _ hg, by simp only [Gaps.merge]; omega⟩

def Pump.frame : Pump → Option (GapNotification × List GapNotification)
  | .select => none
  | .coalescing merged parts => some (merged, parts)
  | .coalesced merged parts _ => some (merged, parts)
  | .sending merged parts => some (merged, parts)

structure Sound (s : State) : Prop where
  queued : ∀ g ∈ s.queue, g ∈ s.drops
  lost : ∀ g ∈ s.pump.lost, g ∈ s.drops
  made : ∀ f ∈ s.pump.frame, Spans f.1 f.2 ∧ ∀ g ∈ f.2, g ∈ s.drops
  sent : ∀ f ∈ s.frames, Spans f.1 f.2 ∧ ∀ g ∈ f.2, g ∈ s.drops

attribute [local simp] Pump.frame Pump.lost Gaps.init

theorem Sound.init : Sound init := ⟨by simp, by simp, by simp, by simp⟩

theorem mem_of_offer {α : Type} {c : Prop} [Decidable c] {q l : List α} {x : α} (h : x ∈ if c then q ++ l else q) :
    x ∈ q ∨ x ∈ l := by
  split at h
  · exact mem_append.1 h
  · exact .inl h

theorem Sound.step (h : Sound s) (hs : step cap s a = some s') : Sound s' := by
  cases step_moves hs with
  | drop skipped channel lastPos ts gap hgp =>
    have hm : ∀ g ∈ s.drops, g ∈ s.drops ++ [gap] := fun g hg => mem_append_left _ hg
    refine ⟨fun g hg => ?_, fun g hg => hm g (h.lost g hg), fun f hf => ?_, fun f hf => ?_⟩
    · rcases mem_of_offer hg with hold | hn
      · exact hm g (h.queued g hold)
      · exact mem_append_right _ hn
    · exact ⟨(h.made f hf).1, fun g hg => hm g ((h.made f hf).2 g hg)⟩
    · exact ⟨(h.sent f hf).1, fun g hg => hm g ((h.sent f hf).2 g hg)⟩
  | take gap queue hp hq =>
    refine ⟨fun g hg => h.queued g (by simp [hq, hg]), by simp, fun f hf => ?_, h.sent⟩
    obtain rfl : (gap, [gap]) = f := by simpa using hf
    exact ⟨.single gap, fun g hg => h.queued g (by simp [hq, mem_singleton.1 hg])⟩
  | drained merged parts hp hq =>
    exact ⟨h.queued, by simp, fun f hf => h.made f (by simpa [hp] using hf), h.sent⟩
  | other merged gap parts queue hp hq hch =>
    refine ⟨fun g hg => h.queued g (by simp [hq, hg]), fun g hg => ?_, fun f hf => h.made f (by simpa [hp] using hf), h.sent⟩
    obtain rfl : gap = g := by simpa using hg
    exact h.queued gap (by simp [hq])
  | same merged gap parts queue hp hq hch =>
    refine ⟨fun g hg => h.queued g (by simp [hq, hg]), by simp, fun f hf => ?_, h.sent⟩
    obtain rfl : (merge merged gap, parts ++ [gap]) = f := by simpa using hf
    obtain ⟨hsp, hd⟩ := h.made (merged, parts) (by simp [hp])
    exact ⟨hsp.merge hch, forall_mem_append.2 ⟨hd, forall_mem_singleton.2 (h.queued gap (by simp [hq]))⟩⟩
  | requeue merged parts lost hp =>
    refine ⟨fun g hg => ?_, by simp, fun f hf => h.made f (by simpa [hp] using hf), h.sent⟩
    rcases mem_of_offer hg with hold | hn
    · exact h.queued g hold
    · exact h.lost g (by simpa [hp] using hn)
  | send room merged parts hp =>
    refine ⟨h.queued, by simp, by simp, fun f hf => ?_⟩
    rcases mem_of_offer hf with hold | hn
    · exact h.sent f hold
    · obtain rfl := mem_singleton.1 hn
      exact h.made (merged, parts) (by simp [hp])

/-! ## The order of the notifications -/

structure Ordered (s : State) : Prop where
  bound : ∀ g ∈ s.queue, g.fromSeq ≤ s.seq
  lost : ∀ g ∈ s.pump.lost, g.fromSeq ≤ s.seq
  made : ∀ f ∈ s.pump.frame, f.1.fromSeq ≤ s.seq ∧ Anchored s.drops f.1
  queue : s.queue.Pairwise fun g g' => g.channel = g'.channel → g.fromSeq < g'.fromSeq
  behind : ∀ merged parts, s.pump = .coalescing merged parts →
    ∀ g ∈ s.queue, g.channel = merged.channel → merged.fromSeq < g.fromSeq
  anchored : ∀ f ∈ s.frames, Anchored s.drops f.1

theorem Anchored.mono {drops : List GapNotification} {frame : GapNotification} (h : Anchored drops frame)
    (gap : GapNotification) : Anchored (drops ++ [gap]) frame := by
  obtain ⟨g, hg, hr⟩ := h
  exact ⟨g, mem_append_left _ hg, hr⟩

theorem Ordered.step (hsn : Sound s) (h : Ordered s) (hok : InOrder cap s a) (hs : step cap s a = some s') : Ordered s' := by
  cases step_moves hs with
  | drop skipped channel lastPos ts gap hgp =>
    have hsq : gap.fromSeq = s.seq + skipped + 1 := by rw [hgp]
    have hm : ∀ g, g ∈ (if s.queue.length < cap then s.queue ++ [gap] else s.queue) → g ∈ s.queue ∨ g = gap :=
      fun g hg => (mem_of_offer hg).imp_right mem_singleton.1
    refine ⟨fun g hg => ?_, fun g hg => ?_, fun f hf => ?_, ?_, fun merged parts hp g hg hch => ?_, fun f hf => ?_⟩
    · rcases hm g hg with hold | rfl
      · have := h.bound g hold
        simp only
        omega
      · simp only
        omega
    · have := h.lost g hg
      simp only
      omega
    · obtain ⟨hle, ha⟩ := h.made f hf
      exact ⟨by simp only; omega, ha.mono gap⟩
    · simp only
      split
      · refine pairwise_append.2 ⟨h.queue, pairwise_singleton _ _, fun g hg g' hg' _ => ?_⟩
        have := h.bound g hg
        rw [mem_singleton.1 hg']
        omega
      · exact h.queue
    · rcases hm g hg with hold | rfl
      · exact h.behind merged parts hp g hold hch
      · have := (h.made (merged, parts) (by simp only at hp; simp [hp])).1
        simp only at this
        omega
    · exact (h.anchored f hf).mono gap
  | take gap queue hp hq =>
    have hpr := h.queue
    rw [hq, pairwise_cons] at hpr
    have hgp : gap ∈ s.queue := by simp [hq]
    refine ⟨fun g hg => h.bound g (by simp [hq, hg]), by simp, fun f hf => ?_, hpr.2,
      fun merged parts heq g hg hch => ?_, h.anchored⟩
    · obtain rfl : (gap, [gap]) = f := by simpa using hf
      exact ⟨h.bound gap hgp, gap, hsn.queued gap hgp, rfl, rfl, rfl⟩
    · obtain ⟨rfl, _⟩ : gap = merged ∧ [gap] = parts := by simpa using heq
      exact hpr.1 g hg hch.symm
  | drained merged parts hp hq =>
    exact ⟨h.bound, by simp, fun f hf => h.made f (by simpa [hp] using hf), h.queue, by simp, h.anchored⟩
  | other merged gap parts queue hp hq hch =>
    have hpr := h.queue
    rw [hq, pairwise_cons] at hpr
    refine ⟨fun g hg => h.bound g (by simp [hq, hg]), fun g hg => ?_,
      fun f hf => h.made f (by simpa [hp] using hf), hpr.2, by simp, h.anchored⟩
    obtain rfl : gap = g := by simpa using hg
    exact h.bound gap (by simp [hq])
  | same merged gap parts queue hp hq hch =>
    have hpr := h.queue
    rw [hq, pairwise_cons] at hpr
    -- what is queued is behind the frame, so the smallest number and its position stay
    have hlt : merged.fromSeq < gap.fromSeq := h.behind merged parts hp gap (by simp [hq]) hch
    have hfr : (merge merged gap).fromSeq = merged.fromSeq := Nat.min_eq_left hlt.le
    obtain ⟨hle, d, hd, hdc, hds, hdp⟩ := h.made (merged, parts) (by simp [hp])
    refine ⟨fun g hg => h.bound g (by simp [hq, hg]), by simp, fun f hf => ?_, hpr.2,
      fun merged' parts' heq g hg hc => ?_, h.anchored⟩
    · obtain rfl : (merge merged gap, parts ++ [gap]) = f := by simpa using hf
      exact ⟨hfr ▸ hle, d, hd, hdc, hds.trans hfr.symm, hdp⟩
    · obtain ⟨rfl, _⟩ : merge merged gap = merged' ∧ parts ++ [gap] = parts' := by simpa using heq
      rw [hfr]
      exact h.behind merged parts hp g (by simp [hq, hg]) hc
  | requeue merged parts lost hp =>
    refine ⟨fun g hg => ?_, by simp, fun f hf => h.made f (by simpa [hp] using hf), ?_, by simp, h.anchored⟩
    · rcases mem_of_offer hg with hold | hn
      · exact h.bound g hold
      · exact h.lost g (by simpa [hp] using hn)
    · simp only
      split
      · next hr =>
        cases lost with
        | none => simpa using h.queue
        | some lost =>
          refine pairwise_append.2 ⟨h.queue, pairwise_singleton _ _, fun g hg g' hg' hch => ?_⟩
          rw [Option.toList_some, mem_singleton] at hg'
          subst hg'
          exact absurd hch (hok g' (by simp [hp]) hr g hg)
      · exact h.queue
  | send room merged parts hp =>
    refine ⟨h.bound, by simp, by simp, h.queue, by simp, fun f hf => ?_⟩
    rcases mem_of_offer hf with hold | hn
    · exact h.anchored f hold
    · obtain rfl := mem_singleton.1 hn
      exact (h.made (merged, parts) (by simp [hp])).2

theorem Ordered.init : Ordered init := ⟨by simp, by simp, by simp, by simp, by simp, by simp⟩

theorem run_sound {as : List Act} (hr : run (step cap) init as = some s) : Sound s :=
  run_invariant Sound (fun _ _ _ h hs => h.step hs) Sound.init hr

theorem run_ordered {as : List Act} (hok : Along (step cap) (InOrder cap) init as) (hr : run (step cap) init as = some s) :
    Ordered s := by
  have hb : Sound s ∧ Ordered s := run_invariant_along (fun s => Sound s ∧ Ordered s)
    (fun _ _ _ h hn hs => ⟨h.1.step hs, h.2.step h.1 hn hs⟩) ⟨.init, .init⟩ hok hr
  exact hb.2

/-- **Gap frames.** `from_seq` and `to_seq` are the smallest and the largest dropped number. If a notification goes back into
`gapChan` only when none of its channel is queued, the position is that of `from_seq`, and a replay from there covers all. -/
theorem gapFrames_anchored (cap : Nat) (as : List Act) (s : State) (hrun : run (step cap) init as = some s) :
    (∀ f ∈ s.frames, Spans f.1 f.2 ∧ ∀ g ∈ f.2, g ∈ s.drops) ∧
      (Along (step cap) (InOrder cap) init as → ∀ f ∈ s.frames, Anchored s.drops f.1 ∧ ∀ upTo : GoStr → GoStr → Prop,
          (∀ d ∈ s.drops, ∀ d' ∈ s.drops, d.channel = f.1.channel → d'.channel = f.1.channel →
            d.fromSeq ≤ d'.fromSeq → upTo d.lastPos d'.lastPos) →
          ∀ g ∈ f.2, upTo f.1.lastPos g.lastPos) := by
  have hsound := run_sound hrun
  refine ⟨hsound.sent, fun hok f hf => ?_⟩
  have hanc := (run_ordered hok hrun).anchored f hf
  refine ⟨hanc, fun upTo hup g hg => ?_⟩
  obtain ⟨d, hd, hch, hseq, hpos⟩ := hanc
  obtain ⟨hspan, hdrops⟩ := hsound.sent f hf
  rw [← hpos]
  exact hup d hd g (hdrops g hg) hch (hspan.channel g hg) (hseq ▸ hspan.lower g hg)

theorem gapFrames_anchored_twoChannels :
    ∃ s, run (step 8) init [.drop 0 (str "news") (str "0-5") 0, .drop 2 (str "news") (str "0-6") 0,
        .drop 0 (str "trade") (str "1-3") 0, .take, .coalesce, .coalesce, .requeue, .send true] = some s ∧
      s.frames.map Prod.fst = [⟨str "news", 1, 4, str "0-5", 0⟩] ∧ ∀ f ∈ s.frames, Anchored s.drops f.1 := by
  have hends : (run (step 8) init [.drop 0 (str "news") (str "0-5") 0, .drop 2 (str "news") (str "0-6") 0,
      .drop 0 (str "trade") (str "1-3") 0, .take, .coalesce, .coalesce, .requeue, .send true]).map
        (fun s => s.frames.map Prod.fst) = some [⟨str "news", 1, 4, str "0-5", 0⟩] := by decide +kernel
  obtain ⟨s, hrun, hframes⟩ := Option.map_eq_some_iff.1 hends
  exact ⟨s, hrun, hframes, fun f hf => ((gapFrames_anchored 8 _ s hrun).2 (by decide +kernel) f hf).1⟩

/-- **Bug**: the frame for `news` puts the notification 2 of `trade` back behind 3. The next frame says that 2 to 3 are lost,
with the position of 3. -/
theorem requeued_frame_not_anchored :
    ∃ s, run (step 8) init [.drop 0 (str "news") (str "0-5") 0, .drop 0 (str "trade") (str "1-2") 0,
        .drop 0 (str "trade") (str "1-3") 0, .take, .coalesce, .requeue, .send true, .take, .coalesce, .coalesce,
        .requeue, .send true] = some s ∧
      s.frames.map Prod.fst = [⟨str "news", 1, 1, str "0-5", 0⟩, ⟨str "trade", 2, 3, str "1-3", 0⟩] ∧
      ¬ Anchored s.drops ⟨str "trade", 2, 3, str "1-3", 0⟩ := by
  have hends : (run (step 8) init [.drop 0 (str "news") (str "0-5") 0, .drop 0 (str "trade") (str "1-2") 0,
      .drop 0 (str "trade") (str "1-3") 0, .take, .coalesce, .requeue, .send true, .take, .coalesce, .coalesce,
      .requeue, .send true]).map (fun s => (s.frames.map Prod.fst, s.drops)) =
    some ([⟨str "news", 1, 1, str "0-5", 0⟩, ⟨str "trade", 2, 3, str "1-3", 0⟩],
      [⟨str "news", 1, 1, str "0-5", 0⟩, ⟨str "trade", 2, 2, str "1-2", 0⟩, ⟨str "trade", 3, 3, str "1-3", 0⟩]) := by
    decide +kernel
  obtain ⟨s, hrun, hend⟩ := Option.map_eq_some_iff.1 hends
  obtain ⟨hframes, hdrops⟩ := Prod.mk.inj hend
  refine ⟨s, hrun, hframes, ?_⟩
  rw [hdrops]
  unfold Anchored
  decide

end Sukko.Server.Gaps
