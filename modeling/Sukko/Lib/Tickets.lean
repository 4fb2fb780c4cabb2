import Mathlib.Data.List.Range
import Mathlib.Data.List.Perm.Basic
/-
# Numbered deliveries

Several parties draw numbers from one counter and later enter what the number is for into one queue or give it up. Every number
is held, entered or lost, once (`Accounted`).
-/

namespace Sukko.Tickets
open List
variable {δ : Type}

/-- The counter, who holds which number, and the numbers that entered or were lost. -/
structure Board (δ : Type) where
  last : Nat
  held : List (δ × Nat)
  entered : List Nat
  lost : List Nat
deriving DecidableEq

namespace Board

def empty : Board δ := ⟨0, [], [], []⟩
def draw (b : Board δ) (d : δ) : Board δ := { b with last := b.last + 1, held := b.held ++ [(d, b.last + 1)] }
def enter [DecidableEq δ] (b : Board δ) (t : δ × Nat) : Board δ := { b with held := b.held.erase t, entered := b.entered ++ [t.2] }
def giveUp [DecidableEq δ] (b : Board δ) (t : δ × Nat) : Board δ := { b with held := b.held.erase t, lost := b.lost ++ [t.2] }
def numbers (b : Board δ) : List Nat := b.held.map Prod.snd ++ (b.entered ++ b.lost)

/-! ## No number is lost track of -/

/-- Every number drawn so far is in one place. -/
def Accounted (b : Board δ) : Prop := b.numbers.Perm (List.range' 1 b.last)

theorem Accounted.empty : Accounted (empty : Board δ) := by
  simp [Accounted, numbers, Board.empty]

variable {b : Board δ} {t : δ × Nat}

theorem Accounted.draw (h : Accounted b) (d : δ) : Accounted (b.draw d) := by
  have hm : (b.draw d).numbers.Perm (b.numbers ++ [b.last + 1]) := by
    have hmd := @List.perm_middle _ (b.last + 1) (b.held.map Prod.snd) (b.entered ++ b.lost)
    simp only [numbers, Board.draw, map_append, map_cons, map_nil, append_assoc, singleton_append]
    refine hmd.trans ?_
    rw [← append_assoc, ← append_assoc, ← append_assoc]
    exact (perm_append_singleton _ _).symm
  refine hm.trans ?_
  simp only [Board.draw, List.range'_concat, Nat.one_mul, Nat.add_comm 1 b.last]
  exact h.append_right _

section
variable [DecidableEq δ]

theorem Accounted.move {c : Board δ} (h : Accounted b) (ht : t ∈ b.held) (hl : c.last = b.last)
    (hm : c.numbers.Perm (t.2 :: ((b.held.erase t).map Prod.snd ++ (b.entered ++ b.lost)))) : Accounted c := by
  have hb : (t.2 :: ((b.held.erase t).map Prod.snd ++ (b.entered ++ b.lost))).Perm b.numbers :=
    ((perm_cons_erase ht).map Prod.snd).symm.append_right _
  rw [Accounted, hl]
  exact hm.trans (hb.trans h)

theorem Accounted.enter (h : Accounted b) (ht : t ∈ b.held) : Accounted (b.enter t) := by
  refine h.move ht rfl ?_
  have hm := @List.perm_middle _ t.2 ((b.held.erase t).map Prod.snd ++ b.entered) b.lost
  simpa [numbers, Board.enter, append_assoc] using hm

theorem Accounted.giveUp (h : Accounted b) (ht : t ∈ b.held) : Accounted (b.giveUp t) := by
  refine h.move ht rfl ?_
  have hm := @List.perm_middle _ t.2 ((b.held.erase t).map Prod.snd ++ (b.entered ++ b.lost)) []
  simpa [numbers, Board.giveUp, append_assoc] using hm

end

theorem Accounted.nodup (h : Accounted b) : b.numbers.Nodup := h.nodup_iff.2 List.nodup_range'

theorem Accounted.mem_iff (h : Accounted b) {n : Nat} : n ∈ b.numbers ↔ 1 ≤ n ∧ n ≤ b.last := by
  rw [List.Perm.mem_iff h, mem_range'_1]
  omega

/-! ## Numbers that enter in turn -/

structure InTurn (b : Board δ) : Prop where
  sorted : b.entered.Pairwise (· < ·)
  ahead : ∀ e ∈ b.entered, ∀ t ∈ b.held, e < t.2

theorem InTurn.empty : InTurn (empty : Board δ) := ⟨by simp [Board.empty], by simp [Board.empty]⟩

theorem InTurn.draw (ha : Accounted b) (h : InTurn b) (d : δ) : InTurn (b.draw d) := by
  refine ⟨h.sorted, fun e he t ht => ?_⟩
  rcases mem_append.1 ht with hold | hn
  · exact h.ahead e he t hold
  · have hm : e ∈ b.numbers := mem_append_right _ (mem_append_left _ he)
    have := (ha.mem_iff.1 hm).2
    rw [mem_singleton.1 hn]
    simp only
    omega

theorem InTurn.enter [DecidableEq δ] (ha : Accounted b) (h : InTurn b) (ht : t ∈ b.held)
    (hl : ∀ t' ∈ b.held, t.2 ≤ t'.2) : InTurn (b.enter t) := by
  constructor
  · refine pairwise_append.2 ⟨h.sorted, pairwise_singleton _ _, fun e he n hn => ?_⟩
    rw [mem_singleton.1 hn]
    exact h.ahead e he t ht
  · intro e he t' ht'
    have hh := mem_of_mem_erase ht'
    rcases mem_append.1 he with hold | hnw
    · exact h.ahead e hold t' hh
    rw [mem_singleton.1 hnw]
    have hne : t.2 ≠ t'.2 := by
      have hnd : ((b.held.map Prod.snd)).Nodup := (nodup_append.1 ha.nodup).1
      have hs := ((perm_cons_erase ht).map Prod.snd).nodup_iff.1 hnd
      intro heq
      exact (nodup_cons.1 hs).1 (heq ▸ mem_map_of_mem ht')
    have := hl t' hh
    omega

theorem InTurn.giveUp [DecidableEq δ] (h : InTurn b) (t : δ × Nat) : InTurn (b.giveUp t) :=
  ⟨h.sorted, fun e he t' ht' => h.ahead e he t' (mem_of_mem_erase ht')⟩

/-- A number missing below one that entered is lost. -/
theorem InTurn.missing_lost (ha : Accounted b) (h : InTurn b) {n m : Nat} (hm : m ∈ b.entered) (hp : 1 ≤ n) (hlt : n < m)
    (hms : n ∉ b.entered) : n ∈ b.lost := by
  have hmx : m ∈ b.numbers := mem_append_right _ (mem_append_left _ hm)
  have hle := (ha.mem_iff.1 hmx).2
  have hn : n ∈ b.numbers := ha.mem_iff.2 ⟨hp, by omega⟩
  rcases mem_append.1 hn with hh | hr
  · obtain ⟨t, ht, rfl⟩ := mem_map.1 hh
    have := h.ahead m hm t ht
    omega
  · exact (mem_append.1 hr).resolve_left hms

end Board
end Sukko.Tickets
