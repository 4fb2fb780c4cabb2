import Sukko.Lib.Steps
import Sukko.Lib.Tickets
/-
# The order of the sequence numbers in a client's queue

Every delivery takes a number and then tries to put its frame into `c.send`; nothing holds the two together (`InTurn`). Between
the two each path has branches of its own that discard the frame:

| path | source | discards the frame |
| --- | --- | --- |
| `Broadcast` | `server/broadcast.go:131-178` | full queue (with a `GapNotification`), closed queue |
| live replay | `server/handler_replay.go:136-176` | the deadline while it waits, closed queue |
| history | `server/handler_history.go:126-147` | a payload that is no JSON, full or closed queue |
| reconnect replay | `server/replay_shared.go:113-142` | a payload that is no JSON, full or closed queue |
-/

namespace Sukko.Server.SequenceOrder
open Steps Tickets List Option

inductive Path
  | broadcast
  | liveReplay
  | history
  | reconnectReplay
deriving DecidableEq

/-- One frame on its way: the path and the goroutine that deliver it, and `json.Valid` of its payload. -/
structure Delivery where
  path : Path
  id : Nat
  valid : Bool
deriving DecidableEq

/-- `c.send` is closed by `closeSend` (`server/connection.go:224`) while deliveries may still be on their way. -/
inductive Queue
  | room
  | full
  | closed
deriving DecidableEq

/-- What the send finds: the queue, whether the delivery's context is done, and whether a `select` that may take both the send
and `Done()` takes the latter. -/
structure Attempt where
  queue : Queue
  done : Bool
  picksDone : Bool
deriving DecidableEq

inductive Outcome
  | enters
  | waits
  | gap
  | discards
deriving DecidableEq

/-! ## The four paths -/

def sendBroadcast (x : Attempt) : Outcome :=
  match x.queue with
  | .room => .enters
  | .full => .gap
  -- the send panics, and `Broadcast` is unwound before the branch that makes the notification
  | .closed => .discards

/-- There is no `default` case: the goroutine holds its number until the queue drains or its context is done. -/
def sendLiveReplay (x : Attempt) : Outcome :=
  match x.queue with
  | .room => if x.done && x.picksDone then .discards else .enters
  | .full => if x.done then .discards else .waits
  | .closed => .discards

def marshalAndSend (d : Delivery) (x : Attempt) : Outcome :=
  if !d.valid then .discards
  else
    match x.queue with
    | .room => .enters
    | .full | .closed => .discards

def sendHistory (d : Delivery) (x : Attempt) : Outcome := marshalAndSend d x
def sendReplayed (d : Delivery) (x : Attempt) : Outcome := marshalAndSend d x

def Delivery.send (d : Delivery) (x : Attempt) : Outcome :=
  match d.path with
  | .broadcast => sendBroadcast x
  | .liveReplay => sendLiveReplay x
  | .history => sendHistory d x
  | .reconnectReplay => sendReplayed d x

/-- A live replay skips a payload that is no JSON before it takes a number (`server/handler_replay.go:138`). -/
def Delivery.draws (d : Delivery) : Bool :=
  match d.path with
  | .liveReplay => d.valid
  | .broadcast | .history | .reconnectReplay => true

inductive Act
  | next (d : Delivery)
  | send (d : Delivery) (seq : Nat) (x : Attempt)
deriving DecidableEq

def step (b : Board Delivery) : Act → Option (Board Delivery)
  | .next d => if (∀ t ∈ b.held, (t.1.path, t.1.id) ≠ (d.path, d.id)) ∧ d.draws then some (b.draw d) else none
  | .send d seq x =>
    if (d, seq) ∈ b.held then
      match d.send x with
      | .enters => some (b.enter (d, seq))
      | .waits => none
      | .gap | .discards => some (b.giveUp (d, seq))
    else none

/-- No frame enters `c.send` while a smaller number is on its way. -/
def InTurn (b : Board Delivery) : Act → Prop
  | .next _ => True
  | .send d seq x => d.send x = .enters → ∀ t ∈ b.held, seq ≤ t.2

instance (b : Board Delivery) (a : Act) : Decidable (InTurn b a) := by
  unfold InTurn
  split <;> infer_instance

variable {a : Act} {b b' : Board Delivery}

theorem step_cases (hs : step b a = some b') :
    (∃ d, a = .next d ∧ b' = b.draw d) ∨
    (∃ d seq x, a = .send d seq x ∧ d.send x = .enters ∧ (d, seq) ∈ b.held ∧ b' = b.enter (d, seq)) ∨
      ∃ d seq x, a = .send d seq x ∧ (d.send x = .gap ∨ d.send x = .discards) ∧ (d, seq) ∈ b.held ∧
        b' = b.giveUp (d, seq) := by
  cases a with
  | next d =>
    simp only [step, guarded] at hs
    exact .inl ⟨d, rfl, hs.2.symm⟩
  | send d seq x =>
    simp only [step, ite_none_right_eq_some] at hs
    obtain ⟨hh, hs⟩ := hs
    cases ho : d.send x <;> rw [ho] at hs
    · exact .inr (.inl ⟨d, seq, x, rfl, ho, hh, (Option.some.inj hs).symm⟩)
    · cases hs
    · exact .inr (.inr ⟨d, seq, x, rfl, .inl ho, hh, (Option.some.inj hs).symm⟩)
    · exact .inr (.inr ⟨d, seq, x, rfl, .inr ho, hh, (Option.some.inj hs).symm⟩)

theorem accounted_step (h : b.Accounted) (hs : step b a = some b') : b'.Accounted := by
  rcases step_cases hs with ⟨d, -, rfl⟩ | ⟨d, seq, x, -, -, hh, rfl⟩ | ⟨d, seq, x, -, -, hh, rfl⟩
  · exact h.draw d
  · exact h.enter hh
  · exact h.giveUp hh

theorem inTurn_step (ha : b.Accounted) (h : b.InTurn) (hok : InTurn b a) (hs : step b a = some b') : b'.InTurn := by
  rcases step_cases hs with ⟨d, -, rfl⟩ | ⟨d, seq, x, rfl, ho, hh, rfl⟩ | ⟨d, seq, x, -, -, hh, rfl⟩
  · exact h.draw ha d
  · exact h.enter ha hh (hok ho)
  · exact h.giveUp _

theorem run_accounted {as : List Act} (hr : run step Board.empty as = some b) : b.Accounted :=
  run_invariant Board.Accounted (fun _ _ _ h hs => accounted_step h hs) .empty hr

/-- **The order in a client's queue.** No two frames carry the same number. If no frame enters while a smaller number is on its
way, the numbers increase strictly, and a missing one belongs to a lost frame. -/
theorem numbers_enter_in_order (as : List Act) (b : Board Delivery) (hrun : run step Board.empty as = some b) :
    b.entered.Nodup ∧ (Along step InTurn Board.empty as → b.entered.Pairwise (· < ·) ∧
        ∀ m ∈ b.entered, ∀ n, 1 ≤ n → n < m → n ∉ b.entered → n ∈ b.lost) := by
  have hacc := run_accounted hrun
  refine ⟨(nodup_append.1 (nodup_append.1 hacc.nodup).2.1).1, fun hok => ?_⟩
  have hturn : b.Accounted ∧ b.InTurn := run_invariant_along (fun b => b.Accounted ∧ b.InTurn)
    (fun _ _ _ h hnow hs => ⟨accounted_step h.1 hs, inTurn_step h.1 h.2 hnow hs⟩) ⟨.empty, .empty⟩ hok hrun
  exact ⟨hturn.2.sorted, fun m hm n hpos hlt hmissing => hturn.2.missing_lost hacc hm hpos hlt hmissing⟩

def onBroadcast : Delivery := ⟨.broadcast, 0, true⟩
def onHistory : Delivery := ⟨.history, 0, true⟩
def onLiveReplay : Delivery := ⟨.liveReplay, 0, true⟩
def finds (queue : Queue) : Attempt := ⟨queue, false, false⟩

theorem numbers_enter_in_order_dropped :
    ∃ b, run step Board.empty [.next onBroadcast, .send onBroadcast 1 (finds .room), .next onBroadcast, .next onHistory,
        .send onBroadcast 2 (finds .full), .send onHistory 3 (finds .room)] = some b ∧
      b.entered = [1, 3] ∧ 2 ∈ b.lost := by
  have hends : (run step Board.empty [.next onBroadcast, .send onBroadcast 1 (finds .room), .next onBroadcast,
      .next onHistory, .send onBroadcast 2 (finds .full), .send onHistory 3 (finds .room)]).map Board.entered =
        some [1, 3] := by decide
  obtain ⟨b, hrun, hentered⟩ := map_eq_some_iff.1 hends
  refine ⟨b, hrun, hentered, ?_⟩
  exact ((numbers_enter_in_order _ b hrun).2 (by decide)).2 3 (by simp [hentered]) 2 (by decide) (by decide)
    (by simp [hentered])

/-- **Bug**: a live replay takes the number 1, a broadcast takes 2, and its frame enters first. -/
theorem broadcast_overtakes_replay :
    run step Board.empty [.next onLiveReplay, .next onBroadcast, .send onBroadcast 2 (finds .room),
      .send onLiveReplay 1 (finds .room)] = some ⟨2, [], [2, 1], []⟩ := by
  decide

/-! ## What becomes of a number -/

def Act.lost : Act → List Nat
  | .next _ => []
  | .send d seq x => if d.send x = .gap ∨ d.send x = .discards then [seq] else []

/-- The numbers of the `GapNotification`s that the step tries to enqueue (`server/broadcast.go:165-178`). -/
def Act.gaps : Act → List Nat
  | .next _ => []
  | .send d seq x => if d.send x = .gap then [seq] else []

/-- A broadcast finds the queue open; a live replay finds room before its context is done; a history or reconnect frame has a
payload that serializes and finds room. -/
def Act.Clear : Act → Prop
  | .next _ => True
  | .send d _ x =>
    match d.path with
    | .broadcast => x.queue ≠ .closed
    | .liveReplay => x.queue = .room ∧ (x.done = false ∨ x.picksDone = false)
    | .history | .reconnectReplay => d.valid = true ∧ x.queue = .room

instance (a : Act) : Decidable a.Clear := by
  unfold Act.Clear
  split
  · infer_instance
  · split <;> infer_instance

theorem discards_iff {d : Delivery} {seq : Nat} {x : Attempt} (hw : d.send x ≠ .waits) :
    d.send x = .discards ↔ ¬ (Act.send d seq x).Clear := by
  obtain ⟨path, id, valid⟩ := d
  obtain ⟨queue, done, picksDone⟩ := x
  cases path <;> cases valid <;> cases queue <;> cases done <;> cases picksDone <;>
    simp_all [Delivery.send, sendBroadcast, sendLiveReplay, sendHistory, sendReplayed, marshalAndSend, Act.Clear]

theorem Act.gaps_subset (a : Act) : a.gaps ⊆ a.lost := by
  cases a with
  | next d => exact List.Subset.refl _
  | send d seq x =>
    intro n hn
    simp only [gaps, lost, mem_ite_nil_right] at hn ⊢
    exact ⟨.inl hn.1, hn.2⟩

theorem lost_eq_gaps (hs : step b a = some b') (hc : a.Clear) : a.lost = a.gaps := by
  rcases step_cases hs with ⟨d, rfl, -⟩ | ⟨d, seq, x, rfl, ho, -⟩ | ⟨d, seq, x, rfl, ho | ho, -⟩
  · rfl
  · simp [Act.lost, Act.gaps, ho]
  · simp [Act.lost, Act.gaps, ho]
  · exact absurd hc ((discards_iff (by simp [ho])).1 ho)

theorem lost_unreported (hs : step b a = some b') (hc : ¬ a.Clear) : a.gaps = [] ∧ a.lost ≠ [] := by
  rcases step_cases hs with ⟨d, rfl, -⟩ | ⟨d, seq, x, rfl, ho, -⟩ | ⟨d, seq, x, rfl, ho | ho, -⟩
  · exact absurd trivial hc
  all_goals have hd := (discards_iff (by simp [ho])).2 hc
  · simp [ho] at hd
  · simp [ho] at hd
  · simp [Act.lost, Act.gaps, ho]

theorem lost_step (hs : step b a = some b') : b'.lost = b.lost ++ a.lost := by
  rcases step_cases hs with ⟨d, rfl, rfl⟩ | ⟨d, seq, x, rfl, ho, -, rfl⟩ | ⟨d, seq, x, rfl, ho, -, rfl⟩
  · exact (append_nil _).symm
  · simp [Act.lost, ho, Board.enter]
  · simp [Act.lost, ho, Board.giveUp]

theorem run_lost {as : List Act} (hr : run step Board.empty as = some b) : b.lost = as.flatMap Act.lost := by
  have ha : ∀ a ∈ as, True := fun _ _ => trivial
  refine (run_invariant_recorded Act.lost (fun lost b => b.lost = lost) (fun lost b a b' h _ hs => ?_) rfl ha hr).trans
    (nil_append _)
  rw [lost_step hs, h]

/-- **Every number is on its way, in the queue, or reported**, in every run exactly when no broadcast meets a closed queue, every
live replay gets its room in time, and every history and reconnect frame serializes and finds room. -/
theorem numbers_reported_iff (as : List Act) (b : Board Delivery) (hrun : run step Board.empty as = some b) :
    (∀ n, 1 ≤ n → n ≤ b.last → n ∈ b.held.map Prod.snd ∨ n ∈ b.entered ∨ n ∈ as.flatMap Act.gaps) ↔
      ∀ a ∈ as, a.Clear := by
  have hacc := run_accounted hrun
  have hlost := run_lost hrun
  constructor
  · intro hall a ha
    by_contra hclear
    obtain ⟨s, s', hs⟩ := step_of_mem_run hrun ha
    obtain ⟨hquiet, hloses⟩ := lost_unreported hs hclear
    obtain ⟨n, hn⟩ := exists_mem_of_ne_nil _ hloses
    have hgone : n ∈ b.lost := hlost ▸ mem_flatMap.2 ⟨a, ha, hn⟩
    obtain ⟨-, hrest, hheld⟩ := nodup_append.1 hacc.nodup
    obtain ⟨-, honce, hentered⟩ := nodup_append.1 hrest
    have hrange := hacc.mem_iff.1 (mem_append_right _ (mem_append_right _ hgone))
    rcases hall n hrange.1 hrange.2 with hn' | hn' | hn'
    · exact hheld n hn' n (mem_append_right _ hgone) rfl
    · exact hentered n hn' n hgone rfl
    -- the number would be given up twice
    obtain ⟨a', ha', hn'⟩ := mem_flatMap.1 hn'
    have hne : a ≠ a' := by
      rintro rfl
      rw [hquiet] at hn'
      cases hn'
    rw [hlost, nodup_flatMap] at honce
    have : Std.Symm (Function.onFun List.Disjoint Act.lost) := ⟨fun _ _ hd _ hx hy => hd hy hx⟩
    exact honce.2.forall ha ha' hne hn (a'.gaps_subset hn')
  · intro hclear n hpos hle
    rcases mem_append.1 (hacc.mem_iff.2 ⟨hpos, hle⟩) with hheld | hrest
    · exact .inl hheld
    rcases mem_append.1 hrest with hentered | hgone
    · exact .inr (.inl hentered)
    · rw [hlost] at hgone
      obtain ⟨a, ha, hn⟩ := mem_flatMap.1 hgone
      obtain ⟨s, s', hs⟩ := step_of_mem_run hrun ha
      exact .inr (.inr (mem_flatMap.2 ⟨a, ha, lost_eq_gaps hs (hclear a ha) ▸ hn⟩))

theorem numbers_reported_iff_dropped :
    ∃ b, run step Board.empty [.next onLiveReplay, .next onBroadcast, .next onHistory, .send onBroadcast 2 (finds .full),
        .send onHistory 3 (finds .room), .send onLiveReplay 1 (finds .room)] = some b ∧
      ∀ n, 1 ≤ n → n ≤ b.last → n ∈ b.held.map Prod.snd ∨ n ∈ b.entered ∨ n ∈ [2] :=
  ⟨_, rfl, (numbers_reported_iff [.next onLiveReplay, .next onBroadcast, .next onHistory, .send onBroadcast 2 (finds .full),
    .send onHistory 3 (finds .room), .send onLiveReplay 1 (finds .room)] _ rfl).2 (by decide)⟩

/-- **Bug**: a history delivery at a full queue, a reconnect whose payload is no JSON, a live replay past its deadline and a
broadcast into a closed queue lose a number unreported. -/
theorem silent_losses :
    run step Board.empty [.next onHistory, .send onHistory 1 (finds .full), .next ⟨.reconnectReplay, 0, false⟩,
        .send ⟨.reconnectReplay, 0, false⟩ 2 (finds .room), .next onLiveReplay, .send onLiveReplay 3 ⟨.full, true, true⟩,
        .next onBroadcast, .send onBroadcast 4 (finds .closed)] = some ⟨4, [], [], [1, 2, 3, 4]⟩ ∧
      ([.next onHistory, .send onHistory 1 (finds .full), .next ⟨.reconnectReplay, 0, false⟩,
        .send ⟨.reconnectReplay, 0, false⟩ 2 (finds .room), .next onLiveReplay, .send onLiveReplay 3 ⟨.full, true, true⟩,
        .next onBroadcast, .send onBroadcast 4 (finds .closed)] : List Act).flatMap Act.gaps = [] := by
  decide

end Sukko.Server.SequenceOrder
