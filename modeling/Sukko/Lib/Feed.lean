import Sukko.Lib.Replica
import Sukko.Lib.Table
/-
# A table fed to a replica

The sender reloads the active rows of a table on every change and sends them all, with no key named as removed; the first
message is a snapshot, the others are deltas.
-/

namespace Sukko.Feed
open Replica Table List
variable {τ ρ κ υ : Type} {msg : Message κ υ} {prev : List κ}

structure Load (τ ρ κ : Type) where
  time : τ
  table : List ρ
  active : List ρ
  since : List κ
deriving DecidableEq

def load (key : ρ → κ) (time : τ) (table active : List ρ) (snapshot : Bool) (prev : List κ) : Load τ ρ κ where
  time := time
  table := table
  active := active
  since := if snapshot then active.map key else active.map key ++ prev

variable {active : List ρ} {time : τ}

theorem mem_since_load {key : ρ → κ} {table : List ρ} {snapshot : Bool} {k : κ} :
    k ∈ (load key time table active snapshot prev).since ↔ k ∈ active.map key ∨ (snapshot = false ∧ k ∈ prev) := by
  unfold load
  cases snapshot <;> simp

structure Synced (key : ρ → κ) (Good : ρ → Prop) (replica : Map κ υ) (l : Load τ ρ κ) (table : List ρ) :
    Prop where
  holds : ∀ k, (replica k).isSome = true ↔ k ∈ l.since
  known : ∀ k ∈ l.since, k ∈ l.table.map key
  sent : ∀ k ∈ l.active.map key, k ∈ l.since
  valid : Valid key Good l.table
  later : l.table.map key ⊆ table.map key

variable {key : ρ → κ} {Good : ρ → Prop} {replica : Map κ υ} {l : Load τ ρ κ} {table table' : List ρ}

theorem Synced.write (h : Synced key Good replica l table) (hw : Writes key Good table table') :
    Synced key Good replica l table' :=
  { h with later := fun _ hk => hw.keys_subset (h.later hk) }

/-- **When a replica is exact.** `relevant` restricts the question to some rows; on those, being in the
message means being `live`. -/
theorem Synced.agree_iff (h : Synced key Good replica l table) (relevant live : ρ → Prop) (ha : ∀ r ∈ l.active, r ∈ l.table)
    (hl : ∀ r ∈ l.table, relevant r → (r ∈ l.active ↔ live r)) :
    (∀ k, (∀ r ∈ l.table, key r = k → relevant r) → ((replica k).isSome = true ↔ k ∈ l.active.map key)) ↔
      ∀ r ∈ l.table, relevant r → key r ∈ l.since → live r := by
  constructor
  · intro hag r hr hrl hk
    have ho : ∀ r' ∈ l.table, key r' = key r → relevant r' := by
      intro r' hr' hky
      rw [h.valid.eq_of_key hr' hr hky]
      exact hrl
    obtain ⟨r', hr', hky⟩ := mem_map.1 ((hag (key r) ho).1 ((h.holds _).2 hk))
    rw [h.valid.eq_of_key (ha r' hr') hr hky] at hr'
    exact (hl r hr hrl).1 hr'
  · intro hal k hrl
    rw [h.holds]
    constructor
    · intro hk
      obtain ⟨r, hr, rfl⟩ := mem_map.1 (h.known k hk)
      have hr' : r ∈ l.active := (hl r hr (hrl r hr rfl)).2 (hal r hr (hrl r hr rfl) hk)
      exact mem_map_of_mem hr'
    · exact h.sent k

variable [DecidableEq κ]

/-- **A delivered message**: `prev` are the keys the replica held, all of them keys of the table. -/
theorem Synced.deliver (hp : ∀ k, (replica k).isSome = true ↔ k ∈ prev)
    (hkn : ∀ k ∈ prev, k ∈ table.map key) (hrm : msg.removed = []) (hky : msg.keys = active.map key)
    (hsb : ∀ r ∈ active, r ∈ table) (hv : Valid key Good table) :
    Synced key Good (msg.apply replica) (load key time table active msg.snapshot prev) table := by
  have ha : ∀ k ∈ active.map key, k ∈ table.map key := by
    intro k hk
    obtain ⟨r, hr, rfl⟩ := mem_map.1 hk
    exact mem_map_of_mem (hsb r hr)
  have hs : (load key time table active msg.snapshot prev).since = msg.since prev := by
    simp only [load, Message.since, hky]
  refine ⟨?_, ?_, ?_, hv, fun _ hk => hk⟩
  · intro k
    rw [hs]
    exact Message.isSome_apply_iff hrm hp k
  · intro k hk
    rcases mem_since_load.1 hk with hk | ⟨-, hk⟩
    · exact ha k hk
    · exact hkn k hk
  · intro k hk
    exact mem_since_load.2 (.inl hk)

/-! ## Before and after the first message -/

def sent (l : Option (Load τ ρ κ)) : List κ := (l.map (·.since)).getD []

def Fed (key : ρ → κ) (Good : ρ → Prop) (replica : Map κ υ) (l : Option (Load τ ρ κ)) (table : List ρ) : Prop :=
  match l with
  | none => replica = Map.empty
  | some l => Synced key Good replica l table

variable {l : Option (Load τ ρ κ)}

section
omit [DecidableEq κ]

theorem Fed.synced {last : Load τ ρ κ} (h : Fed key Good replica l table) (hl : l = some last) :
    Synced key Good replica last table := by
  rw [hl] at h
  exact h

theorem Fed.write (h : Fed key Good replica l table) (hw : Writes key Good table table') : Fed key Good replica l table' := by
  cases l with
  | none => exact h
  | some l => exact Synced.write h hw
end

theorem Fed.deliver (h : Fed key Good replica l table) (hr : msg.removed = [])
    (hky : msg.keys = active.map key) (hsb : ∀ r ∈ active, r ∈ table) (hv : Valid key Good table) :
    Fed key Good (msg.apply replica) (some (load key time table active msg.snapshot (sent l))) table := by
  cases l with
  | none =>
    have he : replica = Map.empty := h
    refine Synced.deliver (fun k => ?_) (fun k hk => ?_) hr hky hsb hv
    · simp [he, Map.empty, sent]
    · cases hk
  | some l =>
    have hs : Synced key Good replica l table := h
    exact Synced.deliver hs.holds (fun k hk => hs.later (hs.known k hk)) hr hky hsb hv

end Sukko.Feed
