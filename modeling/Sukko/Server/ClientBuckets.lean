import Sukko.Lib.Steps
import Sukko.Server.MessageLimits
/-
# Whose rate-limit buckets there are

A connection is known by the number that `clientCount` gives it, a `*Client` by the order of its allocation.
`RemoveClient(c.id)` is two steps: its argument is read after `Put`. What does not touch the object is left out.
-/

namespace Sukko.Server.ClientBuckets
open Steps List Function

inductive Place
  | absent
  | connecting
  | served
  | returned
  | removing (arg : ℕ)
  | over
deriving DecidableEq

structure Conn where
  place : Place := .absent
  ref : ℕ := 0
  checked : Bool := false
deriving DecidableEq

structure State where
  clientCount : ℕ
  id : ℕ → ℕ
  allocated : ℕ
  pool : Finset ℕ
  rateLimiter : RateLimiter ℚ
  conns : ℕ → Conn

def initial (burstLimit ratePerSec : ℚ) : State where
  clientCount := 0
  id := fun _ => 0
  allocated := 0
  pool := ∅
  rateLimiter := ⟨[], burstLimit, ratePerSec⟩
  conns := fun _ => {}

inductive Act
  | get (pooled : Option ℕ)
  | hook (n : ℕ) (fails : Bool)
  | check (n : ℕ) (created now : ℚ)
  | put (n : ℕ)
  | readID (n : ℕ)
  | removeClient (n : ℕ)
  | collect (ref : ℕ)

def State.move (s : State) (n : ℕ) (place : Place) : State :=
  { s with conns := update s.conns n { s.conns n with place := place } }

def State.take (s : State) (ref : ℕ) : State :=
  { s with
    clientCount := s.clientCount + 1
    id := update s.id ref (s.clientCount + 1)
    pool := s.pool.erase ref
    conns := update s.conns (s.clientCount + 1) { place := .connecting, ref := ref } }

def State.put (s : State) (ref : ℕ) : State :=
  { s with id := update s.id ref 0, pool := insert ref s.pool }

def step (s : State) : Act → Option State
  | .get (some ref) => if ref ∈ s.pool then some (s.take ref) else none
  | .get none => some ({ s with allocated := s.allocated + 1 }.take s.allocated)
  | .hook n fails =>
    if (s.conns n).place = .connecting then
      some (if fails then (s.put (s.conns n).ref).move n .over else s.move n .served)
    else none
  | .check n created now =>
    if (s.conns n).place = .served then
      some { s with
        rateLimiter := (s.rateLimiter.checkLimit (s.id (s.conns n).ref) created now).2
        conns := update s.conns n { s.conns n with checked := true } }
    else none
  | .put n => if (s.conns n).place = .served then some ((s.put (s.conns n).ref).move n .returned) else none
  | .readID n => if (s.conns n).place = .returned then some (s.move n (.removing (s.id (s.conns n).ref))) else none
  | .removeClient n =>
    match (s.conns n).place with
    | .removing arg => some ({ s with rateLimiter := s.rateLimiter.removeClient arg }.move n .over)
    | _ => none
  | .collect ref => some { s with pool := s.pool.erase ref }

def spares (s : State) : Act → Bool
  | .get (some ref) => decide (∀ n ≤ s.clientCount, (s.conns n).place = .returned → (s.conns n).ref ≠ ref)
  | _ => true

def Conn.isOpen (c : Conn) : Bool := c.place == .served
def State.openConns (s : State) : Finset ℕ := (Finset.range (s.clientCount + 1)).filter fun n => (s.conns n).isOpen

def Conn.Sound (s : State) (n : ℕ) (c : Conn) : Prop :=
  match c.place with
  | .absent => c.checked = false
  | .connecting | .served => s.id c.ref = n ∧ c.ref ∉ s.pool ∧ c.ref < s.allocated
  | .returned => s.id c.ref = 0 ∧ c.ref < s.allocated
  | .removing arg => arg = 0
  | .over => True

structure Limited (s : State) : Prop where
  absent : ∀ n, n = 0 ∨ s.clientCount < n → (s.conns n).place = .absent
  sound : ∀ n, (s.conns n).Sound s n
  pool_lt : ∀ ref ∈ s.pool, ref < s.allocated
  nodup : s.rateLimiter.ids.Nodup
  ids : ∀ n, n ∈ s.rateLimiter.ids ↔ (s.conns n).checked = true

variable {s s' : State} {n ref arg : ℕ} {place : Place}

section
variable (h : Limited s)
include h

theorem Limited.zero_not_mem : 0 ∉ s.rateLimiter.ids := by
  have hs := h.sound 0
  rw [Conn.Sound, h.absent 0 (Or.inl rfl)] at hs
  rw [h.ids, hs]
  exact Bool.false_ne_true

theorem Limited.move (hn : (s.conns n).place ≠ .absent)
    (hs : ({ s.conns n with place := place } : Conn).Sound s n) : Limited (s.move n place) := by
  refine ⟨fun m hm => ?_, fun m => ?_, h.pool_lt, h.nodup, fun m => ?_⟩
  · have hne : m ≠ n := by
      rintro rfl
      exact hn (h.absent m hm)
    exact (congrArg Conn.place (update_of_ne hne _ _)).trans (h.absent m hm)
  · by_cases hm : m = n
    · subst hm
      simpa [State.move, Conn.Sound] using hs
    · simpa [State.move, Conn.Sound, hm] using h.sound m
  · rw [State.move, h.ids]
    by_cases hm : m = n
    · subst hm
      simp
    · simp [hm]

theorem Limited.put (hn : (s.conns n).place = .connecting ∨ (s.conns n).place = .served)
    (hp : place = .returned ∨ place = .over) : Limited ((s.put (s.conns n).ref).move n place) := by
  have hs : s.id (s.conns n).ref = n ∧ (s.conns n).ref ∉ s.pool ∧ (s.conns n).ref < s.allocated := by
    have hs := h.sound n
    rcases hn with hn | hn <;> simpa only [Conn.Sound, hn] using hs
  refine ⟨fun m hm => ?_, fun m => ?_, fun ref hr => ?_, h.nodup, fun m => ?_⟩
  · have ha := h.absent m hm
    have hne : m ≠ n := by
      rintro rfl
      simp [ha] at hn
    simpa [State.move, State.put, hne] using ha
  · by_cases hm : m = n
    · subst hm
      rcases hp with rfl | rfl <;> simp [State.move, State.put, Conn.Sound, hs.2.2]
    · have hm' := h.sound m
      have hc : (update s.conns n { s.conns n with place := place }) m = s.conns m := update_of_ne hm _ _
      simp only [State.move, State.put, hc]
      revert hm'
      -- the object of another holder has the number of that one
      cases hpl : (s.conns m).place <;> simp only [Conn.Sound, hpl, Finset.mem_insert] <;> grind
  · rcases Finset.mem_insert.1 hr with rfl | hold
    · exact hs.2.2
    · exact h.pool_lt ref hold
  · by_cases hm : m = n
    · subst hm
      simpa [State.move, State.put] using h.ids m
    · simpa [State.move, State.put, hm] using h.ids m

theorem Limited.take {allocated : ℕ} (ha : s.allocated ≤ allocated) (hr : ref < allocated)
    (hf : ∀ m, (s.conns m).place = .connecting ∨ (s.conns m).place = .served ∨ (s.conns m).place = .returned →
      (s.conns m).ref ≠ ref) : Limited ({ s with allocated := allocated }.take ref) := by
  have hnew := h.absent (s.clientCount + 1) (Or.inr (Nat.lt_succ_self _))
  refine ⟨fun m hm => ?_, fun m => ?_, fun r hm => ?_, h.nodup, fun m => ?_⟩
  · have hne : m ≠ s.clientCount + 1 := by
      simp only [State.take] at hm
      omega
    have hm' : m = 0 ∨ s.clientCount < m := by
      simp only [State.take] at hm
      omega
    simpa [State.take, hne] using h.absent m hm'
  · by_cases hm : m = s.clientCount + 1
    · subst hm
      simpa [State.take, Conn.Sound] using hr
    · have hm' := h.sound m
      have hfm := hf m
      have hc : (update s.conns (s.clientCount + 1) { place := .connecting, ref := ref }) m = s.conns m := update_of_ne hm _ _
      simp only [State.take, hc]
      revert hm' hfm
      cases hpl : (s.conns m).place <;> simp only [Conn.Sound, hpl, Finset.mem_erase] <;> grind
  · exact (h.pool_lt r (Finset.mem_of_mem_erase hm)).trans_le ha
  · by_cases hm : m = s.clientCount + 1
    · subst hm
      have hs := h.sound (s.clientCount + 1)
      rw [Conn.Sound, hnew] at hs
      simpa [State.take, hs] using h.ids (s.clientCount + 1)
    · simpa [State.take, hm] using h.ids m

theorem Limited.check (hn : (s.conns n).place = .served) (created now : ℚ) : Limited { s with
      rateLimiter := (s.rateLimiter.checkLimit (s.id (s.conns n).ref) created now).2
      conns := update s.conns n { s.conns n with checked := true } } := by
  have hs := h.sound n
  have hid : s.id (s.conns n).ref = n := by
    rw [Conn.Sound, hn] at hs
    exact hs.1
  have hi := RateLimiter.ids_checkLimit s.rateLimiter n created now
  rw [hid]
  refine ⟨fun m hm => ?_, fun m => ?_, h.pool_lt, ?_, fun m => ?_⟩
  · have hne : m ≠ n := by
      rintro rfl
      simp [h.absent m hm] at hn
    simpa [hne] using h.absent m hm
  · by_cases hm : m = n
    · subst hm
      simpa [Conn.Sound, hn] using hs
    · simpa [Conn.Sound, hm] using h.sound m
  · rw [hi]
    split
    · exact h.nodup
    · exact nodup_cons.2 ⟨by assumption, h.nodup⟩
  · dsimp only
    rw [hi]
    have hm' := h.ids m
    by_cases hm : m = n
    · subst hm
      simp only [update_self, iff_true]
      split
      · assumption
      · exact mem_cons_self
    · rw [update_of_ne hm, ← hm']
      split
      · exact Iff.rfl
      · simp [hm]

theorem Limited.ids_removeClient (hn : (s.conns n).place = .removing arg) :
    (s.rateLimiter.removeClient arg).ids = s.rateLimiter.ids := by
  have hs := h.sound n
  rw [Conn.Sound, hn] at hs
  cases hs
  rw [RateLimiter.ids_removeClient, filter_eq_self]
  intro m hm
  have hne : m ≠ 0 := fun h0 => h.zero_not_mem (h0 ▸ hm)
  simpa using hne

end

theorem limited_step (a : Act) (h : Limited s) (hsp : spares s a = true) (hs : step s a = some s') : Limited s' := by
  cases a with simp only [step, guarded] at hs
  | get pooled =>
    cases pooled with
    | none =>
      cases hs
      refine h.take (Nat.le_succ _) (Nat.lt_succ_self _) fun m hm => ?_
      have hm' := h.sound m
      rcases hm with hm | hm | hm <;> simp only [Conn.Sound, hm] at hm' <;> omega
    | some ref =>
      simp only [guarded] at hs
      obtain ⟨hr, rfl⟩ := hs
      refine h.take le_rfl (h.pool_lt ref hr) fun m hm hc => ?_
      have hm' := h.sound m
      rcases hm with hm | hm | hm
      · simp only [Conn.Sound, hm, hc] at hm'
        exact hm'.2.1 hr
      · simp only [Conn.Sound, hm, hc] at hm'
        exact hm'.2.1 hr
      · have hle : m ≤ s.clientCount := by
          by_contra hlt
          simp [h.absent m (Or.inr (not_le.1 hlt))] at hm
        exact of_decide_eq_true hsp m hle hm hc
  | hook n fails =>
    obtain ⟨hn, rfl⟩ := hs
    cases fails with
    | true => exact h.put (Or.inl hn) (Or.inr rfl)
    | false =>
      have hm := h.sound n
      refine h.move (by simp [hn]) ?_
      simpa only [Conn.Sound, hn] using hm
  | check n created now =>
    obtain ⟨hn, rfl⟩ := hs
    exact h.check hn created now
  | put n =>
    obtain ⟨hn, rfl⟩ := hs
    exact h.put (Or.inr hn) (Or.inl rfl)
  | readID n =>
    obtain ⟨hn, rfl⟩ := hs
    have hm := h.sound n
    rw [Conn.Sound, hn] at hm
    exact h.move (by simp [hn]) hm.1
  | removeClient n =>
    split at hs
    · rename_i arg hn
      cases hs
      have hi := h.ids_removeClient hn
      have hk : Limited { s with rateLimiter := s.rateLimiter.removeClient arg } :=
        ⟨h.absent, h.sound, h.pool_lt, hi ▸ h.nodup, hi ▸ h.ids⟩
      exact hk.move (by simp [hn]) trivial
    · cases hs
  | collect ref =>
    cases hs
    refine ⟨h.absent, fun m => ?_, fun r hr => h.pool_lt r (Finset.mem_of_mem_erase hr), h.nodup, h.ids⟩
    have hm := h.sound m
    revert hm
    cases hpl : (s.conns m).place <;> simp only [Conn.Sound, hpl, Finset.mem_erase] <;> grind

theorem limited_initial (burstLimit ratePerSec : ℚ) : Limited (initial burstLimit ratePerSec) := by
  constructor <;> simp [initial, Conn.Sound, RateLimiter.ids]

/-- **Whose buckets there are**, if the pool does not hand out an object before a disconnect has read its `id`: those of
connected clients exactly as long as no client has left that has sent a message. -/
theorem buckets_exact {as : List Act} {burstLimit ratePerSec : ℚ}
    (hspares : Along step (fun s a => spares s a = true) (initial burstLimit ratePerSec) as)
    (hrun : run step (initial burstLimit ratePerSec) as = some s) :
    (∀ n, (s.conns n).isOpen = true → s.id (s.conns n).ref = n) ∧
    (∀ n, n ∈ s.rateLimiter.ids ↔ (s.conns n).checked = true) ∧
    ((∀ n ∈ s.rateLimiter.ids, (s.conns n).isOpen = true) ↔ ∀ n, (s.conns n).checked = true → (s.conns n).isOpen = true) ∧
    ((∀ n, (s.conns n).checked = true → (s.conns n).isOpen = true) → s.rateLimiter.clients.length ≤ s.openConns.card) ∧
    ∀ n s', step s (.put n) = some s' ∨ step s (.readID n) = some s' ∨ step s (.removeClient n) = some s' →
      s'.rateLimiter.ids = s.rateLimiter.ids := by
  have h := run_invariant_along Limited (fun s a s' h ha => limited_step a h ha) (limited_initial burstLimit ratePerSec) hspares hrun
  refine ⟨fun n hn => ?_, h.ids, forall_congr' fun n => by rw [h.ids], fun hopen => ?_, fun n s' hs => ?_⟩
  · have hs := h.sound n
    rw [Conn.Sound, beq_iff_eq.1 hn] at hs
    exact hs.1
  · have hsub : s.rateLimiter.ids.toFinset ⊆ s.openConns := by
      intro n hn
      have ho := hopen n ((h.ids n).1 (List.mem_toFinset.1 hn))
      refine Finset.mem_filter.2 ⟨Finset.mem_range.2 (Nat.lt_succ_of_le ?_), ho⟩
      by_contra hlt
      simp [Conn.isOpen, h.absent n (Or.inr (not_le.1 hlt))] at ho
    have hle := Finset.card_le_card hsub
    rwa [toFinset_card_of_nodup h.nodup, RateLimiter.ids, length_map] at hle
  · rcases hs with hs | hs | hs
    · simp only [step, guarded] at hs
      obtain ⟨-, rfl⟩ := hs
      rfl
    · simp only [step, guarded] at hs
      obtain ⟨-, rfl⟩ := hs
      rfl
    · simp only [step] at hs
      split at hs
      · rename_i arg hn
        cases hs
        exact h.ids_removeClient hn
      · cases hs

def messages : List Act :=
  [.get none, .hook 1 false, .get none, .hook 2 false, .check 2 0 0, .check 2 1 1, .put 1, .readID 1, .removeClient 1]

theorem buckets_exact_messages : ∃ s, run step (initial 100 10) messages = some s ∧ s.rateLimiter.ids = [2] ∧
      s.rateLimiter.clients.length ≤ s.openConns.card := by
  obtain ⟨s, hs⟩ := Option.isSome_iff_exists.1 (show (run step (initial 100 10) messages).isSome = true by decide)
  have hids : (run step (initial 100 10) messages).map (fun s => (s.rateLimiter.ids, (s.conns 2).isOpen)) = some ([2], true) := by
    decide
  rw [hs, Option.map_some, Option.some.injEq, Prod.mk.injEq] at hids
  obtain ⟨-, -, hiff, hcard, -⟩ := buckets_exact (by decide) hs
  refine ⟨s, hs, hids.1, hcard (hiff.1 fun n hn => ?_)⟩
  rw [hids.1, mem_singleton] at hn
  exact hn ▸ hids.2

/-- **Bug**: a client leaves its bucket behind, and the disconnect of one whose object was handed out again removes the bucket of
another (`server/client_lifecycle.go:76-80`). -/
theorem bucket_left_and_lost :
    (run step (initial 100 10) [.get none, .hook 1 false, .check 1 0 0, .put 1, .readID 1, .removeClient 1]).map
      (fun s => (s.rateLimiter.ids, s.conns 1)) = some ([1], ⟨.over, 0, true⟩) ∧
    (run step (initial 100 10) [.get none, .hook 1 false, .put 1, .get (some 0), .hook 2 false, .check 2 0 0, .readID 1,
      .removeClient 1]).map (fun s => (s.rateLimiter.ids, s.conns 1, s.conns 2)) =
      some ([], ⟨.over, 0, false⟩, ⟨.served, 0, true⟩) := by
  decide

end Sukko.Server.ClientBuckets
