import Sukko.Lib.Slots
import Sukko.Lib.Steps
/-
# The connection slots of a tenant

`TenantConnectionTracker` (gateway/tenant_connections.go): `TryAcquire` fetches the tenant's counter, then loads it
and tries to swap it in a loop; `Release` is deferred by the handler whose `TryAcquire` answered true. Every atomic operation of
`TryAcquire` is one step of one of `n` handlers. A counter starts at 0 and is never deleted, so its tenant stands for the pointer.
-/

namespace Sukko.Gateway.TenantConnections
open Steps Function Slots

/-- The limits of a tracker; `GatewayConfig.Validate` refuses a default below 1 (gateway_config.go:198). -/
structure Limits (T : Type) where
  defaultLimit : Int
  limits : T → Option Int
  validated : 1 ≤ defaultLimit

inductive Pc (T : Type)
  | idle
  | loading (t : T) (limit : Int)
  | swapping (t : T) (limit current : Int)
  | rejected (t : T)
  | acquired (t : T)
deriving DecidableEq

structure State (n : Nat) (T : Type) where
  connections : T → Int
  pc : Fin n → Pc T

inductive Act (n : Nat) (T : Type)
  | getOrCreateCounter (g : Fin n) (t : T)
  | load (g : Fin n) (t : T) (limit : Int)
  | compareAndSwap (g : Fin n) (t : T) (limit current : Int)
  | release (g : Fin n) (t : T)

section
variable {n : Nat} {T : Type} [DecidableEq T] {c : Limits T} {s s' : State n T} {a : Act n T} {g : Fin n} {p : Pc T}

/-- See `gateway/tenant_connections.go:63`. -/
def Limits.getLimit (c : Limits T) (t : T) : Int :=
  match c.limits t with
  | some l => if 0 < l then l else c.defaultLimit
  | none => c.defaultLimit

def State.goto (s : State n T) (g : Fin n) (p : Pc T) : State n T := { s with pc := update s.pc g p }

def State.store (s : State n T) (t : T) (m : Int) : State n T := { s with connections := update s.connections t m }

def init : State n T := ⟨fun _ => 0, fun _ => .idle⟩

def step (c : Limits T) (s : State n T) : Act n T → Option (State n T)
  | .getOrCreateCounter g t => if s.pc g = .idle then some (s.goto g (.loading t (c.getLimit t))) else none
  | .load g t limit =>
    let current := s.connections t
    if s.pc g = .loading t limit then some (s.goto g (if limit ≤ current then .rejected t else .swapping t limit current)) else none
  | .compareAndSwap g t limit current =>
    if s.pc g = .swapping t limit current then
      some (if s.connections t = current then (s.store t (current + 1)).goto g (.acquired t) else s.goto g (.loading t limit))
    else none
  | .release g t =>
    let newVal := s.connections t - 1
    if s.pc g = .acquired t then some ((s.store t (if newVal < 0 then 0 else newVal)).goto g .idle) else none

def Pc.slot : Pc T → Option T
  | acquired t => some t
  | _ => none

/-- How many slots of the tenant are in use. -/
def State.held (s : State n T) (t : T) : Nat := (contents fun g => (s.pc g).slot).count t

/-- What a handler remembers: the limit is its tenant's, and the value it swaps from lies below it. -/
def Pc.Fits (c : Limits T) : Pc T → Prop
  | loading t limit => limit = c.getLimit t
  | swapping t limit current => limit = c.getLimit t ∧ current < limit
  | _ => True

structure Inv (c : Limits T) (s : State n T) : Prop where
  exact : ∀ t, s.connections t = s.held t
  bounded : ∀ t, s.connections t ≤ c.getLimit t
  fits : ∀ g, (s.pc g).Fits c

theorem inv_init : Inv c (init : State n T) := by
  refine ⟨fun t => by simp [State.held, init, contents, Pc.slot], fun t => ?_, fun _ => trivial⟩
  have := c.validated
  simp only [init, Limits.getLimit]
  split <;> [split; skip] <;> omega

/-- One handler moves: the count of every tenant changes by the slot it takes or gives back. -/
theorem Inv.move (h : Inv c s) (hpc : s'.pc = update s.pc g p) (hp : p.Fits c)
    (hn : ∀ t, s'.connections t + ((s.pc g).slot.toList.count t : Nat) = s.connections t + (p.slot.toList.count t : Nat))
    (hl : ∀ t, s'.connections t ≤ c.getLimit t) : Inv c s' := by
  refine ⟨fun t => ?_, hl, fun x => by by_cases hx : x = g <;> simp [hpc, hx, hp, h.fits]⟩
  have hc := count_contents_update (fun g => (s.pc g).slot) g p.slot t
  have hs : (fun x => (s'.pc x).slot) = update (fun x => (s.pc x).slot) g p.slot := hpc ▸ comp_update Pc.slot s.pc g p
  have he := h.exact t
  have hn := hn t
  rw [State.held] at he ⊢
  rw [hs]
  omega

theorem Inv.step (h : Inv c s) (hs : step c s a = some s') : Inv c s' := by
  cases a with
  | getOrCreateCounter g t =>
    obtain ⟨hg, rfl⟩ := guarded.mp hs
    exact h.move rfl rfl (fun _ => by rw [hg]; rfl) h.bounded
  | load g t limit =>
    obtain ⟨hg, rfl⟩ := guarded.mp hs
    have hf := h.fits g
    rw [hg] at hf
    split
    · exact h.move rfl trivial (fun _ => by rw [hg]; rfl) h.bounded
    · exact h.move rfl ⟨hf, by omega⟩ (fun _ => by rw [hg]; rfl) h.bounded
  | compareAndSwap g t limit current =>
    obtain ⟨hg, rfl⟩ := guarded.mp hs
    have hf := h.fits g
    rw [hg] at hf
    split
    · refine h.move rfl trivial (fun u => ?_) fun u => ?_
      all_goals
        have := h.bounded u
        rcases eq_or_ne u t with rfl | hu
        · simp_all [State.store, State.goto, Pc.slot, Pc.Fits] <;> omega
        · simp_all [State.store, State.goto, Pc.slot, hu.symm]
    · exact h.move rfl hf.1 (fun _ => by rw [hg]; rfl) h.bounded
  | release g t =>
    obtain ⟨hg, rfl⟩ := guarded.mp hs
    -- the counter is positive: it counts at least this slot
    have hm : t ∈ contents fun g => (s.pc g).slot := List.mem_filterMap.mpr ⟨g, List.mem_finRange g, by rw [hg]; rfl⟩
    have hc : 0 < s.held t := List.count_pos_iff.mpr hm
    have he := h.exact t
    rw [if_neg (by omega)]
    refine h.move rfl trivial (fun u => ?_) fun u => ?_
    all_goals
      have := h.bounded u
      rcases eq_or_ne u t with rfl | hu
      · simp_all [State.store, State.goto, Pc.slot] <;> omega
      · simp_all [State.store, State.goto, Pc.slot, hu.symm]

/-- **Every slot counts once.** In every interleaving of `TryAcquire` and `Release` the counter of a tenant is the number of its
slots in use, never negative and never above the limit; a `TryAcquire` that answers false has just read the limit. -/
theorem tenant_slots_exact {as : List (Act n T)} (hr : run (step c) init as = some s) :
    (∀ t, s.connections t = s.held t ∧ 0 ≤ s.connections t ∧ s.connections t ≤ c.getLimit t) ∧
    ∀ g t limit s', step c s (.load g t limit) = some s' → s'.pc g = .rejected t → s.connections t = c.getLimit t := by
  have h := run_invariant (Inv c) (fun _ _ _ => Inv.step) inv_init hr
  refine ⟨fun t => ⟨h.exact t, h.exact t ▸ Int.natCast_nonneg _, h.bounded t⟩, fun g t limit s' hs hp => ?_⟩
  obtain ⟨hg, rfl⟩ := guarded.mp hs
  have hf := h.fits g
  rw [hg] at hf
  obtain rfl : limit = c.getLimit t := hf
  simp only [State.goto, update_self] at hp
  split at hp
  · exact Int.le_antisymm (h.bounded t) ‹_›
  · cases hp

def oneSlot : Limits Unit := ⟨1, fun _ => none, by decide⟩

/-- Two of three handlers load 0; the swap of the second fails. -/
def contention : List (Act 3 Unit) :=
  [.getOrCreateCounter 0 (), .getOrCreateCounter 1 (), .load 0 () 1, .load 1 () 1, .compareAndSwap 0 () 1 0,
    .compareAndSwap 1 () 1 0]

theorem tenant_slots_exact_one : ∃ s s' t : State 3 Unit, run (step oneSlot) init contention = some s ∧
    step oneSlot s (.load 1 () 1) = some s' ∧ s'.pc 1 = .rejected () ∧ s.connections () = oneSlot.getLimit () ∧
    run (step oneSlot) init (contention ++ [.load 1 () 1, .release 0 ()]) = some t ∧
    t.connections () = t.held () ∧ t.connections () = 0 := by
  obtain ⟨s, hs⟩ : ∃ s, run (step oneSlot) init contention = some s := ⟨_, rfl⟩
  obtain ⟨t, ht, hzero⟩ : ∃ t, run (step oneSlot) init (contention ++ [.load 1 () 1, .release 0 ()]) = some t ∧
      t.connections () = 0 := ⟨_, rfl, rfl⟩
  obtain ⟨s', hload, hrej⟩ : ∃ s', step oneSlot s (.load 1 () 1) = some s' ∧ s'.pc 1 = .rejected () := by
    cases hs
    exact ⟨_, rfl, rfl⟩
  exact ⟨s, s', t, hs, hload, hrej, (tenant_slots_exact hs).2 1 () 1 s' hload hrej, ht, ((tenant_slots_exact ht).1 ()).1, hzero⟩
end
end Sukko.Gateway.TenantConnections
