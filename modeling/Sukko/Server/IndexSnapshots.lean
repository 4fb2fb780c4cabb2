import Sukko.Server.Subscriptions
/-
# The snapshots of the subscription index

`SubscriptionIndex` (`server/connection.go:504`): a map from channels to `*atomic.Value`s, each pointing to a slice. `Get`
(`:683`) looks the value up under the read lock and loads it later; in between the entry can be deleted and created anew.
`AddMultiple` and `RemoveMultiple` are one `Add` or `Remove` for each channel. Read under the lock, the heap is the index of
`Subscriptions` (`list_after`).
-/

namespace Sukko.Server.IndexSnapshots
open Function List

/-- The heap of the index: `cells` are the `atomic.Value`s, `slices` the arrays they point to. -/
structure Index (Channel Client : Type) where
  subscribers : Channel → Option Nat
  cells : Nat → Nat
  slices : Nat → List Client
  nextCell : Nat
  nextSlice : Nat

inductive Act (Channel Client : Type)
  | add (ch : Channel) (client : Client)
  | remove (ch : Channel) (client : Client)

section
variable {Channel Client : Type} [DecidableEq Channel] [DecidableEq Client] {s : Index Channel Client} {a : Act Channel Client}
  {as : List (Act Channel Client)} {ch : Channel} {r i : Nat}

namespace Index

/-- A new slice in a cell: `atomicVal.Store(newSlice)`. -/
def store (s : Index Channel Client) (r : Nat) (newSlice : List Client) : Index Channel Client :=
  { s with cells := update s.cells r s.nextSlice, slices := update s.slices s.nextSlice newSlice, nextSlice := s.nextSlice + 1 }

def create (s : Index Channel Client) (ch : Channel) : Index Channel Client :=
  { s with subscribers := update s.subscribers ch (some s.nextCell), nextCell := s.nextCell + 1 }

def delete (s : Index Channel Client) (ch : Channel) : Index Channel Client :=
  { s with subscribers := update s.subscribers ch none }

/-- See `server/connection.go:520`. -/
def add (s : Index Channel Client) (ch : Channel) (client : Client) : Index Channel Client :=
  match s.subscribers ch with
  | none => (s.create ch).store s.nextCell [client]
  | some r =>
    let currentSlice := s.slices (s.cells r)
    if client ∈ currentSlice then s else s.store r (currentSlice ++ [client])

/-- See `server/connection.go:591`. -/
def remove (s : Index Channel Client) (ch : Channel) (client : Client) : Index Channel Client :=
  match s.subscribers ch with
  | none => s
  | some r =>
    let currentSlice := s.slices (s.cells r)
    let newSlice := currentSlice.erase client
    if client ∈ currentSlice then (if newSlice = [] then s.delete ch else s.store r newSlice) else s

/-- The slice `Get` returns that looked its cell up in `s` and loads it in `t`. -/
def get (s t : Index Channel Client) (ch : Channel) : Option Nat := (s.subscribers ch).map t.cells

def contents (s : Index Channel Client) (slice : Option Nat) : List Client := slice.elim [] s.slices

/-- The subscribers of the channel. -/
def list (s : Index Channel Client) (ch : Channel) : List Client := s.contents (s.get s ch)

end Index

/-- No entries; a cell that was never stored to holds the nil slice. -/
def init : Index Channel Client := ⟨fun _ => none, fun _ => 0, fun _ => [], 0, 1⟩

def step (s : Index Channel Client) : Act Channel Client → Index Channel Client
  | .add ch client => s.add ch client
  | .remove ch client => s.remove ch client

structure Inv (s : Index Channel Client) : Prop where
  known : ∀ ch r, s.subscribers ch = some r → r < s.nextCell
  loaded : ∀ r, s.cells r < s.nextSlice
  owned : ∀ ch ch' r, s.subscribers ch = some r → s.subscribers ch' = some r → ch = ch'

/-- What one update does to the heap. -/
theorem step_cases (s : Index Channel Client) (a : Act Channel Client) :
    step s a = s ∨ (∃ ch, step s a = s.delete ch) ∨ (∃ ch r l, s.subscribers ch = some r ∧ step s a = s.store r l) ∨
      ∃ ch l, s.subscribers ch = none ∧ step s a = (s.create ch).store s.nextCell l := by
  cases a with simp only [step, Index.add, Index.remove]
  | add ch client =>
    split
    · exact .inr (.inr (.inr ⟨_, _, by assumption, rfl⟩))
    · split
      · exact .inl rfl
      · exact .inr (.inr (.inl ⟨_, _, _, by assumption, rfl⟩))
  | remove ch client =>
    split
    · exact .inl rfl
    · split
      · split
        · exact .inr (.inl ⟨_, rfl⟩)
        · exact .inr (.inr (.inl ⟨_, _, _, by assumption, rfl⟩))
      · exact .inl rfl

theorem Inv.step (h : Inv s) : Inv (step s a) := by
  obtain ⟨hk, hl, ho⟩ := h
  rcases step_cases s a with e | ⟨ch, e⟩ | ⟨ch, r, l, hr, e⟩ | ⟨ch, l, hn, e⟩ <;> rw [e]
  · exact ⟨hk, hl, ho⟩
  · refine ⟨fun c r => ?_, hl, fun c d r => ?_⟩ <;> simp only [Index.delete, update_apply] <;> grind
  · refine ⟨hk, fun r => ?_, ho⟩
    simp only [Index.store, update_apply]
    grind
  · refine ⟨fun c r => ?_, fun r => ?_, fun c d r => ?_⟩ <;> simp only [Index.create, Index.store, update_apply] <;> grind

def after (as : List (Act Channel Client)) : Index Channel Client := as.foldl step init

theorem inv_after (as : List (Act Channel Client)) : Inv (after as) := by
  have hi : Inv (init : Index Channel Client) := ⟨by simp [init], by simp [init], by simp [init]⟩
  exact foldlRecOn as step hi fun _ h _ _ => h.step

end

/-! ## The index that the updates see -/

section
variable {Channel Client : Type} [DecidableEq Channel] {s : Index Channel Client} {ch : Channel} {r : Nat}

theorem list_store {ch' : Channel} {l : List Client} (h : Inv s) (hr : s.subscribers ch = some r) :
    (s.store r l).list ch' = if ch' = ch then l else s.list ch' := by
  by_cases he : ch' = ch
  · subst he
    simp [Index.list, Index.contents, Index.get, Index.store, hr]
  cases hr' : s.subscribers ch' with
  | none => simp [Index.list, Index.contents, Index.get, Index.store, hr', he]
  | some r' =>
    have hne : r' ≠ r := fun heq => he (h.owned ch' ch r (heq ▸ hr') hr)
    simp [Index.list, Index.contents, Index.get, Index.store, hr', he, hne, (h.loaded r').ne]

theorem list_create {ch' : Channel} {l : List Client} (h : Inv s) :
    ((s.create ch).store s.nextCell l).list ch' = if ch' = ch then l else s.list ch' := by
  by_cases he : ch' = ch
  · subst he
    simp [Index.list, Index.contents, Index.get, Index.store, Index.create]
  cases hr' : s.subscribers ch' with
  | none => simp [Index.list, Index.contents, Index.get, Index.store, Index.create, hr', he]
  | some r' =>
    have hne : r' ≠ s.nextCell := (h.known ch' r' hr').ne
    simp [Index.list, Index.contents, Index.get, Index.store, Index.create, hr', he, hne, (h.loaded r').ne]

theorem list_delete {ch' : Channel} : (s.delete ch).list ch' = if ch' = ch then [] else s.list ch' := by
  by_cases he : ch' = ch <;> simp [Index.list, Index.contents, Index.get, Index.delete, he]

end

def onIndex (idx : SubscriptionIndex) : Act GoStr Ref → SubscriptionIndex
  | .add ch c => idx.add ch c
  | .remove ch c => idx.remove ch c

theorem list_step {s : Index GoStr Ref} {idx : SubscriptionIndex} (h : Inv s) (hl : s.list = idx.subscribers) (a : Act GoStr Ref) :
    (step s a).list = (onIndex idx a).subscribers := by
  funext ch'
  have hch : ∀ ch, idx.subscribers ch = (s.subscribers ch).elim [] fun r => s.slices (s.cells r) := fun ch => by
    rw [← hl]
    cases hr : s.subscribers ch <;> simp [Index.list, Index.contents, Index.get, hr]
  cases a with
  | add ch c =>
    have hc := hch ch
    simp only [step, onIndex, Index.add, SubscriptionIndex.add]
    cases hr : s.subscribers ch with
    | none =>
      rw [hr] at hc
      simp [hc, list_create h, SubscriptionIndex.store, update_apply, hl]
    | some r =>
      rw [hr] at hc
      by_cases hm : c ∈ s.slices (s.cells r)
      · simp [hc, hm, hl]
      · simp [hc, hm, list_store h hr, SubscriptionIndex.store, update_apply, hl]
  | remove ch c =>
    have hc := hch ch
    simp only [step, onIndex, Index.remove, SubscriptionIndex.remove, SubscriptionIndex.store, update_apply]
    cases hr : s.subscribers ch with
    | none =>
      rw [hr] at hc
      by_cases he : ch' = ch <;> simp [he, hc, hl]
    | some r =>
      rw [hr] at hc
      by_cases hm : c ∈ s.slices (s.cells r)
      · by_cases hn : (s.slices (s.cells r)).erase c = [] <;> simp [hc, hm, hn, list_store h hr, list_delete, hl]
      · by_cases he : ch' = ch <;> simp [he, hc, hm, hl, erase_of_not_mem]

/-- **Under the lock the heap is the index**: after any updates every channel has the subscribers that `SubscriptionIndex` gives
it. -/
theorem list_after (as : List (Act GoStr Ref)) : (after as).list = (as.foldl onIndex .empty).subscribers := by
  have hrun : ∀ (s : Index GoStr Ref) (idx : SubscriptionIndex), Inv s → s.list = idx.subscribers →
      (as.foldl step s).list = (as.foldl onIndex idx).subscribers := by
    induction as with
    | nil => exact fun _ _ _ hl => hl
    | cons a as ih => exact fun s idx h hl => ih _ _ h.step (list_step h hl a)
  exact hrun init .empty (inv_after []) rfl

end Sukko.Server.IndexSnapshots
