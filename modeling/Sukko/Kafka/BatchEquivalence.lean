import Sukko.Kafka.Batched
import Sukko.Kafka.Unbatched
/-
# The batched and the unbatched loop do the same

Every statement of either loop is one `Move` of what it has yet to look up, its history and what it holds back (`View`); along
the moves these are what the records read so far call for (`Reads`).
-/

namespace Sukko.Kafka
open Steps List

/-! ## What a record calls for -/

inductive Outcome
  | broadcast (subject : GoStr)
  | drop (reason : Reason) (job : Option DLQJob)
  | miss
deriving DecidableEq

def outcome (cfg : Config) (x : Record × Resolver) : Outcome :=
  match extractChannel x.2 x.1 with
  | (channel, none, _) => .broadcast channel
  | (_, some .unknownTopic, _) => .miss
  | (_, some reason, tenant) => .drop reason (routeToDLQ cfg x.1 tenant reason)

def Outcome.sent (r : Record) : Outcome → Option (GoStr × Record)
  | .broadcast subject => some (subject, r)
  | _ => none

def Outcome.dropped (r : Record) : Outcome → Option (Record × Reason × Option DLQJob)
  | .drop reason job => some (r, reason, job)
  | _ => none

def Outcome.mark (r : Record) : Outcome → Option Record
  | .miss => none
  | _ => some r

def broadcasts (hist : List Event) : List (GoStr × Record) :=
  hist.filterMap fun | .broadcast subject r => some (subject, r) | _ => none

def submissions (hist : List Event) : List (Record × Reason × Option DLQJob) :=
  hist.filterMap fun | .routedToDLQ r reason job => some (r, reason, job) | _ => none

def marks (hist : List Event) : List Record :=
  hist.filterMap fun | .marked r => some r | _ => none

structure View where
  unread : List Record
  hist : List Event
  unsent : List (GoStr × Record)
  unmarked : List Record

inductive Move (cfg : Config) (v : View) : List Resolver → View → Prop
  | idle : Move cfg v [] v
  | hold {r : Record} {rest : List Record} {answer : Resolver} {subject : GoStr} (hread : v.unread = r :: rest)
      (hout : outcome cfg (r, answer) = .broadcast subject) :
      Move cfg v [answer] ⟨rest, v.hist, v.unsent ++ [(subject, r)], v.unmarked ++ [r]⟩
  | drop {r : Record} {rest unmarked : List Record} {answer : Resolver} {reason : Reason} {job : Option DLQJob}
      (hread : v.unread = r :: rest) (hout : outcome cfg (r, answer) = .drop reason job)
      (hmarks : unmarked.Perm (v.unmarked ++ [r])) :
      Move cfg v [answer] ⟨rest, v.hist ++ [.routedToDLQ r reason job], v.unsent, unmarked⟩
  | miss {r : Record} {rest : List Record} {answer : Resolver} (hread : v.unread = r :: rest)
      (hout : outcome cfg (r, answer) = .miss) :
      Move cfg v [answer] ⟨rest, v.hist ++ [.registryMiss r], v.unsent, v.unmarked⟩
  | send {r : Record} {subject : GoStr} {rest : List (GoStr × Record)} (hnext : v.unsent = (subject, r) :: rest) :
      Move cfg v [] ⟨v.unread, v.hist ++ [.broadcast subject r], rest, v.unmarked⟩
  | mark {r : Record} {rest : List Record} (hnext : v.unmarked = r :: rest) :
      Move cfg v [] ⟨v.unread, v.hist ++ [.marked r], v.unsent, rest⟩

structure Reads (cfg : Config) (log : List Record) (done : List (Record × Resolver)) (v : View) : Prop where
  split : log = done.map Prod.fst ++ v.unread
  broadcasts : broadcasts v.hist ++ v.unsent = done.filterMap fun x => (outcome cfg x).sent x.1
  submissions : submissions v.hist = done.filterMap fun x => (outcome cfg x).dropped x.1
  marks : (marks v.hist ++ v.unmarked).Perm (done.filterMap fun x => (outcome cfg x).mark x.1)

section
variable {cfg : Config} {log : List Record} {done : List (Record × Resolver)} {v v' : View} {answers : List Resolver}

theorem Move.of_eq (h : v' = v) : Move cfg v [] v' := h ▸ .idle
theorem reads_init : Reads cfg log [] ⟨log, [], [], []⟩ := ⟨rfl, rfl, rfl, List.Perm.refl _⟩

theorem Reads.move (h : Reads cfg log done v) (hm : Move cfg v answers v') :
    ∃ done', done'.map Prod.snd = done.map Prod.snd ++ answers ∧ Reads cfg log done' v' := by
  have hsp {r : Record} {rest : List Record} (hr : v.unread = r :: rest) (answer : Resolver) :
      log = (done ++ [(r, answer)]).map Prod.fst ++ rest := by
    rw [h.split, hr]
    simp
  obtain ⟨hlg, hb, hs, hmr⟩ := h
  simp only [Kafka.broadcasts, Kafka.submissions, Kafka.marks] at hb hs hmr
  cases hm with
  | idle => exact ⟨done, (append_nil _).symm, hlg, hb, hs, hmr⟩
  | @hold r rest answer subject hr ho =>
    refine ⟨done ++ [(r, answer)], by simp, hsp hr answer, ?_, ?_, ?_⟩
    · rw [← append_assoc]
      simp [Kafka.broadcasts, hb, ho, Outcome.sent]
    · simp [Kafka.submissions, hs, ho, Outcome.dropped]
    · rw [← append_assoc]
      simpa [Kafka.marks, ho, Outcome.mark] using hmr.append_right [r]
  | @drop r rest unmarked answer reason job hr ho hp =>
    refine ⟨done ++ [(r, answer)], by simp, hsp hr answer, ?_, ?_, ?_⟩
    · simp [Kafka.broadcasts, hb, ho, Outcome.sent]
    · simp [Kafka.submissions, hs, ho, Outcome.dropped]
    · have hl := (hp.append_left _).trans ((List.Perm.of_eq (append_assoc ..).symm).trans (hmr.append_right [r]))
      simpa [Kafka.marks, ho, Outcome.mark] using hl
  | @miss r rest answer hr ho =>
    refine ⟨done ++ [(r, answer)], by simp, hsp hr answer, ?_, ?_, ?_⟩
    · simp [Kafka.broadcasts, hb, ho, Outcome.sent]
    · simp [Kafka.submissions, hs, ho, Outcome.dropped]
    · simpa [Kafka.marks, ho, Outcome.mark] using hmr
  | @send r subject rest hn =>
    rw [hn] at hb
    exact ⟨done, (append_nil _).symm, hlg, by simpa [Kafka.broadcasts] using hb, by simpa [Kafka.submissions] using hs,
      by simpa [Kafka.marks] using hmr⟩
  | @mark r rest hn =>
    rw [hn] at hmr
    exact ⟨done, (append_nil _).symm, hlg, by simpa [Kafka.broadcasts] using hb, by simpa [Kafka.submissions] using hs,
      by simpa [Kafka.marks] using hmr⟩

theorem reads_of_drained {σ α : Type} {step : σ → α → Option σ} {lookup : α → List Resolver} {view : σ → View}
    {Going : σ → Prop} {ok : α → Prop} {s₀ s : σ} {acts : List α}
    (hst : ∀ s a s', Going s → ok a → step s a = some s' → Going s' ∧ Move cfg (view s) (lookup a) (view s'))
    (h₀ : Going s₀ ∧ view s₀ = ⟨log, [], [], []⟩) (hok : ∀ a ∈ acts, ok a) (hr : run step s₀ acts = some s)
    (he : (view s).unread = [] ∧ (view s).unsent = [] ∧ (view s).unmarked = []) :
    Reads cfg log (log.zip (acts.flatMap lookup)) ⟨[], (view s).hist, [], []⟩ := by
  obtain ⟨-, done, hsn, h⟩ := run_invariant_recorded lookup
    (fun answers s => Going s ∧ ∃ done, done.map Prod.snd = answers ∧ Reads cfg log done (view s))
    (by
      rintro _ s a s' ⟨hgn, done, rfl, h⟩ hok hs
      obtain ⟨hg, hm⟩ := hst s a s' hgn hok hs
      exact ⟨hg, h.move hm⟩)
    ⟨h₀.1, [], rfl, h₀.2 ▸ reads_init⟩ hok hr
  obtain ⟨hu, hus, hun⟩ := he
  have hf : done.map Prod.fst = log := by rw [h.split, hu, append_nil]
  obtain rfl := zip_of_prod hf hsn
  have hv : view s = ⟨[], (view s).hist, [], []⟩ := by
    calc view s = ⟨(view s).unread, (view s).hist, (view s).unsent, (view s).unmarked⟩ := rfl
      _ = _ := by rw [hu, hus, hun]
  rwa [hv] at h

theorem Reads.same {hist hi : List Event} (h : Reads cfg log done ⟨[], hist, [], []⟩)
    (h' : Reads cfg log done ⟨[], hi, [], []⟩) :
    Kafka.broadcasts hist = Kafka.broadcasts hi ∧ Kafka.submissions hist = Kafka.submissions hi ∧
      (Kafka.marks hist).Perm (Kafka.marks hi) := by
  have hb := h.broadcasts
  have hb' := h'.broadcasts
  have hm := h.marks
  have hm' := h'.marks
  rw [append_nil] at hb hb' hm hm'
  exact ⟨hb.trans hb'.symm, h.submissions.trans h'.submissions.symm, hm.trans hm'.symm⟩

end

theorem Retry.cancelled_of_abandoned {cancelled : Bool} {t : Retry} {a : RetryAct}
    (h : t.step cancelled a = some .abandoned) : cancelled = true := by
  cases t with
  | send =>
    cases a with
    | bus ok => cases ok <;> cases h
    | ctxDone | timer => cases h
  | backoff =>
    cases a with
    | ctxDone =>
      simp only [Retry.step] at h
      split at h
      · assumption
      · cases h
    | bus _ | timer => cases h

/-! ## The batched loop -/

namespace Batched

def Act.lookup : Act → List Resolver
  | .extract tenantResolver => [tenantResolver]
  | _ => []

def Pc.reading : Pc → List Record
  | .gate _ r | .extract r => [r]
  | _ => []

def Pc.unsent : Pc → List Prepared
  | .deliver _ msg todo _ => msg :: todo
  | .mark _ todo _ => todo
  | _ => []

def Pc.dropped : Pc → List Record
  | .dropMark r => [r]
  | _ => []

def Pc.resumes : Pc → Bool
  | .deliver _ _ _ k | .mark _ _ k => decide (k = .resume)
  | .stopped => false
  | _ => true

def State.unread (s : State) : List Record := s.pc.reading ++ s.recordCh ++ s.poller.held ++ s.pending
def State.unsent (s : State) : List (GoStr × Record) := (s.pc.unsent ++ s.batch).map fun msg => (msg.subject, msg.record)
def State.unmarked (s : State) : List Record := s.pc.dropped ++ s.waiting

/-- Every record has been looked up, and nothing is held back. -/
def State.Drained (s : State) : Prop := s.pc = .select ∧ s.batch = [] ∧ s.recordCh ++ s.poller.held ++ s.pending = []

def State.view (s : State) : View := ⟨s.unread, s.hist, s.unsent, s.unmarked⟩
def State.Going (s : State) : Prop := s.cancelled = false ∧ s.pc.resumes = true

attribute [local simp] State.view State.unread State.unsent State.unmarked State.waiting Pc.reading Pc.unsent Pc.unmarked
  Pc.dropped Poller.held

theorem held_of_drained {s : State} (h : s.Drained) : s.view.unread = [] ∧ s.view.unsent = [] ∧ s.view.unmarked = [] := by
  obtain ⟨hpc, hb, hr⟩ := h
  simpa [hpc, hb] using hr

theorem flushBatch_view {s : State} (h : s.Going) (hpc : s.pc = .select) :
    (flushBatch s .resume).Going ∧ (flushBatch s .resume).view = s.view := by
  obtain ⟨pc, cancelled, poller, recordCh, batch, pending, hist⟩ := s
  obtain rfl : pc = .select := hpc
  cases batch with
  | nil => exact ⟨h, rfl⟩
  | cons msg todo => exact ⟨⟨h.1, rfl⟩, by simp [flushBatch]⟩

theorem afterExtract_eq (cfg : Config) (s : State) (r : Record) (tenantResolver : Resolver) :
    afterExtract cfg s r (extractChannel tenantResolver r) =
      match outcome cfg (r, tenantResolver) with
      | .broadcast subject => appendBatch cfg s ⟨r.topic, subject, r.value, r⟩
      | .miss => { s with pc := .noMark r, hist := s.hist ++ [.registryMiss r] }
      | .drop reason job => { s with pc := .dropMark r, hist := s.hist ++ [.routedToDLQ r reason job] } := by
  unfold outcome
  obtain ⟨channel, reason, tenant⟩ := extractChannel tenantResolver r
  cases reason with
  | none => rfl
  | some reason => cases reason <;> rfl

theorem afterExtract_move {cfg : Config} {s : State} {r : Record} (h : s.cancelled = false) (hpc : s.pc = .extract r)
    (tenantResolver : Resolver) : (afterExtract cfg s r (extractChannel tenantResolver r)).Going ∧
      Move cfg s.view [tenantResolver] (afterExtract cfg s r (extractChannel tenantResolver r)).view := by
  obtain ⟨pc, cancelled, poller, recordCh, batch, pending, hist⟩ := s
  obtain rfl : pc = .extract r := hpc
  rw [afterExtract_eq]
  cases ho : outcome cfg (r, tenantResolver) with
  | broadcast subject =>
    let held : State := ⟨.select, cancelled, poller, recordCh, batch ++ [⟨r.topic, subject, r.value, r⟩], pending, hist⟩
    have hg : held.Going := ⟨h, rfl⟩
    have hm : Move cfg (State.view ⟨.extract r, cancelled, poller, recordCh, batch, pending, hist⟩) [tenantResolver]
        held.view := by
      simpa [held] using Move.hold (v := State.view ⟨.extract r, cancelled, poller, recordCh, batch, pending, hist⟩) rfl ho
    simp only [appendBatch]
    split
    · obtain ⟨hf, hv⟩ := flushBatch_view hg rfl
      exact ⟨hf, hv ▸ hm⟩
    · exact ⟨hg, hm⟩
  | miss => exact ⟨⟨h, rfl⟩, .miss rfl ho⟩
  | drop reason job => exact ⟨⟨h, rfl⟩, .drop rfl ho perm_append_comm⟩

theorem move_of_step {cfg : Config} (s : State) (a : Act) (s' : State) (h : s.Going) (hok : a ≠ .cancel)
    (hs : step cfg s a = some s') : s'.Going ∧ Move cfg s.view a.lookup s'.view := by
  obtain ⟨ha, hr⟩ := h
  cases a with simp only [step] at hs
  | cancel => exact absurd rfl hok
  | pollFetches n =>
    split at hs <;> cases hs
    rename_i hp
    exact ⟨⟨ha, hr⟩, .of_eq (by simp [hp, ha])⟩
  | pollerSend =>
    split at hs
    · rename_i r fetch hp
      split at hs <;> cases hs
      exact ⟨⟨ha, hr⟩, .of_eq (by simp [hp])⟩
    · cases hs
  | pollerDone | ctxDone =>
    split at hs
    · simp [ha] at hs
    · cases hs
  | flushTimer =>
    split at hs <;> cases hs
    rename_i hpc
    obtain ⟨hf, hv⟩ := flushBatch_view ⟨ha, hr⟩ hpc
    exact ⟨hf, .of_eq hv⟩
  | recv =>
    split at hs <;> cases hs
    rename_i hpc hch
    exact ⟨⟨ha, rfl⟩, .of_eq (by simp [hpc, hch])⟩
  | gate a =>
    split at hs <;> try cases hs
    rename_i g r hpc
    obtain ⟨out, ho, rfl⟩ := Option.map_eq_some_iff.1 hs
    cases out with
    | abandoned => simp [Gate.cancelled_of_abandoned ho] at ha
    | still g | admitted => exact ⟨⟨ha, rfl⟩, .of_eq (by simp [afterGate, hpc])⟩
  | extract tenantResolver =>
    split at hs <;> cases hs
    rename_i r hpc
    exact afterExtract_move ha hpc tenantResolver
  | checkErr =>
    split at hs <;> cases hs
    rename_i r hpc
    rw [if_neg (by simp [ha])]
    exact ⟨⟨ha, rfl⟩, .of_eq (by simp [hpc])⟩
  | dropMark =>
    split at hs <;> cases hs
    rename_i r hpc
    obtain ⟨pc, cancelled, poller, recordCh, batch, pending, hist⟩ := s
    obtain rfl : pc = .dropMark r := hpc
    exact ⟨⟨ha, rfl⟩, .mark rfl⟩
  | deliver a =>
    split at hs <;> try cases hs
    rename_i t msg todo k hpc
    have hk : k = .resume := by simpa [hpc, Pc.resumes] using hr
    subst hk
    obtain ⟨out, ho, rfl⟩ := Option.map_eq_some_iff.1 hs
    cases out with
    | abandoned => simp [Retry.cancelled_of_abandoned ho] at ha
    | still t => exact ⟨⟨ha, rfl⟩, .of_eq (by simp [afterRetry, hpc])⟩
    | delivered =>
      obtain ⟨pc, cancelled, poller, recordCh, batch, pending, hist⟩ := s
      obtain rfl : pc = .deliver t msg todo .resume := hpc
      exact ⟨⟨ha, rfl⟩, .send rfl⟩
  | mark =>
    split at hs <;> cases hs
    rename_i msg todo k hpc
    have hk : k = .resume := by simpa [hpc, Pc.resumes] using hr
    subst hk
    obtain ⟨pc, cancelled, poller, recordCh, batch, pending, hist⟩ := s
    obtain rfl : pc = .mark msg todo .resume := hpc
    cases todo <;> exact ⟨⟨ha, rfl⟩, .mark rfl⟩

end Batched

/-! ## The unbatched loop -/

namespace Unbatched

def Act.lookup : Act → List Resolver
  | .extract tenantResolver => [tenantResolver]
  | _ => []

def Pc.unread : Pc → List Record
  | .next fetch | .deliver _ _ _ fetch | .mark _ fetch => fetch
  | .gate _ r fetch | .extract r fetch => r :: fetch
  | .head | .poll | .skip _ | .stopped => []

def Pc.unsent : Pc → List (GoStr × Record)
  | .deliver _ channel r _ => [(channel, r)]
  | _ => []

def Pc.unmarked : Pc → List Record
  | .deliver _ _ r _ | .mark r _ => [r]
  | _ => []

/-- Every record has been looked up, and the loop is done with it. -/
def State.Drained (s : State) : Prop := s.pc = .head ∧ s.pending = []

def State.view (s : State) : View := ⟨s.pc.unread ++ s.pending, s.hist, s.pc.unsent, s.pc.unmarked⟩
def State.Going (s : State) : Prop := s.cancelled = false ∧ s.pc.live = true

attribute [local simp] State.view Pc.unread Pc.unsent Pc.unmarked

theorem held_of_drained {s : State} (h : s.Drained) : s.view.unread = [] ∧ s.view.unsent = [] ∧ s.view.unmarked = [] := by
  obtain ⟨hpc, hp⟩ := h
  simp [hpc, hp]

theorem afterExtract_eq (cfg : Config) (s : State) (r : Record) (fetch : List Record) (tenantResolver : Resolver) :
    afterExtract cfg s r fetch (extractChannel tenantResolver r) =
      match outcome cfg (r, tenantResolver) with
      | .broadcast subject => { s with pc := .deliver .send subject r fetch }
      | .miss => { s with pc := .next fetch, hist := s.hist ++ [.registryMiss r] }
      | .drop reason job => { s with pc := .mark r fetch, hist := s.hist ++ [.routedToDLQ r reason job] } := by
  unfold outcome
  obtain ⟨channel, reason, tenant⟩ := extractChannel tenantResolver r
  cases reason with
  | none => rfl
  | some reason => cases reason <;> rfl

theorem afterExtract_move {cfg : Config} {s : State} {r : Record} {fetch : List Record} (h : s.cancelled = false)
    (hpc : s.pc = .extract r fetch) (tenantResolver : Resolver) :
    (afterExtract cfg s r fetch (extractChannel tenantResolver r)).Going ∧
      Move cfg s.view [tenantResolver] (afterExtract cfg s r fetch (extractChannel tenantResolver r)).view := by
  obtain ⟨pc, cancelled, pending, hist⟩ := s
  obtain rfl : pc = .extract r fetch := hpc
  rw [afterExtract_eq]
  cases ho : outcome cfg (r, tenantResolver) with
  | broadcast subject => exact ⟨⟨h, rfl⟩, .hold rfl ho⟩
  | miss => exact ⟨⟨h, rfl⟩, .miss rfl ho⟩
  | drop reason job => exact ⟨⟨h, rfl⟩, .drop rfl ho (List.Perm.refl _)⟩

theorem move_of_step {cfg : Config} (s : State) (a : Act) (s' : State) (h : s.Going) (hok : a ≠ .cancel)
    (hs : step cfg s a = some s') : s'.Going ∧ Move cfg s.view a.lookup s'.view := by
  obtain ⟨ha, hl⟩ := h
  cases a with simp only [step] at hs
  | cancel => exact absurd rfl hok
  | loop =>
    split at hs <;> cases hs
    rename_i hpc
    rw [if_neg (by simp [ha])]
    exact ⟨⟨ha, rfl⟩, .of_eq (by simp [hpc])⟩
  | poll n =>
    split at hs <;> cases hs
    rename_i hpc
    exact ⟨⟨ha, rfl⟩, .of_eq (by simp [hpc])⟩
  | next =>
    split at hs <;> cases hs <;> rename_i hpc
    · exact ⟨⟨ha, rfl⟩, .of_eq (by simp [hpc])⟩
    · exact ⟨⟨ha, rfl⟩, .of_eq (by simp [hpc])⟩
    · simp [hpc, Pc.live] at hl
    · simp [hpc, Pc.live] at hl
  | gate a =>
    split at hs <;> try cases hs
    rename_i g r fetch hpc
    obtain ⟨out, ho, rfl⟩ := Option.map_eq_some_iff.1 hs
    cases out with
    | abandoned => simp [Gate.cancelled_of_abandoned ho] at ha
    | still g | admitted => exact ⟨⟨ha, rfl⟩, .of_eq (by simp [afterGate, hpc])⟩
  | extract tenantResolver =>
    split at hs <;> cases hs
    rename_i r fetch hpc
    exact afterExtract_move ha hpc tenantResolver
  | deliver a =>
    split at hs <;> try cases hs
    rename_i t channel r fetch hpc
    obtain ⟨out, ho, rfl⟩ := Option.map_eq_some_iff.1 hs
    cases out with
    | abandoned => simp [Retry.cancelled_of_abandoned ho] at ha
    | still t => exact ⟨⟨ha, rfl⟩, .of_eq (by simp [afterRetry, hpc])⟩
    | delivered =>
      obtain ⟨pc, cancelled, pending, hist⟩ := s
      obtain rfl : pc = .deliver t channel r fetch := hpc
      exact ⟨⟨ha, rfl⟩, .send rfl⟩
  | mark =>
    split at hs <;> cases hs
    rename_i r fetch hpc
    obtain ⟨pc, cancelled, pending, hist⟩ := s
    obtain rfl : pc = .mark r fetch := hpc
    exact ⟨⟨ha, rfl⟩, .mark rfl⟩

end Unbatched

/-- **Batched and unbatched consumption** of the same records with the same answers, uncancelled and ending with nothing held
back: the same broadcasts and submissions in the same order, and the same marks. -/
theorem consumeLoop_equivalent {cfg : Config} {log : List Record} {acts : List Batched.Act} {s : Batched.State}
    {acts' : List Unbatched.Act} {s' : Unbatched.State} (hrun : run (Batched.step cfg) (Batched.init log) acts = some s)
    (hrun' : run (Unbatched.step cfg) (Unbatched.init log) acts' = some s') (hok : ∀ a ∈ acts, a ≠ .cancel)
    (hok' : ∀ a ∈ acts', a ≠ .cancel) (hend : s.Drained) (hend' : s'.Drained)
    (hanswers : acts.flatMap Batched.Act.lookup = acts'.flatMap Unbatched.Act.lookup) :
    broadcasts s.hist = broadcasts s'.hist ∧ submissions s.hist = submissions s'.hist ∧
      (marks s.hist).Perm (marks s'.hist) := by
  have hb := reads_of_drained Batched.move_of_step ⟨⟨rfl, rfl⟩, rfl⟩ hok hrun (Batched.held_of_drained hend)
  have hu := reads_of_drained Unbatched.move_of_step ⟨⟨rfl, rfl⟩, rfl⟩ hok' hrun' (Unbatched.held_of_drained hend')
  rw [← hanswers] at hu
  exact hb.same hu

def heldBackRun : List Batched.Act :=
  [.pollFetches 2, .pollerSend, .pollerSend] ++ Batched.prepareNext ++ Batched.prepareNext ++
    [.dropMark, .flushTimer, .deliver (.bus false), .deliver .timer, .deliver (.bus true), .mark]

def oneByOneRun : List Unbatched.Act :=
  let prepare : List Unbatched.Act :=
    [.next, .gate (.allow true), .gate (.pause false), .extract (some fun _ => some (str "acme"))]
  [.loop, .poll 2] ++ prepare ++ [.deliver (.bus true), .mark] ++ prepare ++ [.mark, .next]

theorem consumeLoop_equivalent_heldBackRun : ∃ s s',
    run (Batched.step ⟨str "prod", true, 2⟩) (Batched.init Batched.dropBehindBatch) heldBackRun = some s ∧
    run (Unbatched.step ⟨str "prod", true, 2⟩) (Unbatched.init Batched.dropBehindBatch) oneByOneRun = some s' ∧
    marks s.hist ≠ marks s'.hist ∧ broadcasts s.hist = broadcasts s'.hist ∧ submissions s.hist = submissions s'.hist ∧
    (marks s.hist).Perm (marks s'.hist) := by
  obtain ⟨s, hs, hend, hmarks⟩ : ∃ s,
      run (Batched.step ⟨str "prod", true, 2⟩) (Batched.init Batched.dropBehindBatch) heldBackRun = some s ∧
      s.Drained ∧ marks s.hist = [Batched.headerless, acmeRecord 0 (str "acme.a")] :=
    ⟨_, rfl, ⟨rfl, rfl, rfl⟩, rfl⟩
  obtain ⟨s', hs', hend', hmarks'⟩ : ∃ s',
      run (Unbatched.step ⟨str "prod", true, 2⟩) (Unbatched.init Batched.dropBehindBatch) oneByOneRun = some s' ∧
      s'.Drained ∧ marks s'.hist = [acmeRecord 0 (str "acme.a"), Batched.headerless] :=
    ⟨_, rfl, ⟨rfl, rfl⟩, rfl⟩
  refine ⟨s, s', hs, hs', ?_, consumeLoop_equivalent hs hs' ?_ ?_ hend hend' rfl⟩
  · rw [hmarks, hmarks']
    decide
  · rintro a ha rfl
    simp [heldBackRun, Batched.prepareNext] at ha
  · rintro a ha rfl
    simp [oneByOneRun] at ha

end Sukko.Kafka
