import Mathlib.Logic.Function.Basic
import Mathlib.Data.List.Basic
/-
# Maps replicated by a snapshot and deltas

A `Map` is a Go map that is only read by key. A message resets the map or not, deletes some keys and sets others.
-/

namespace Sukko.Replica
open List
variable {κ υ : Type} [DecidableEq κ] {ks : List κ}

abbrev Map (κ υ : Type) := κ → Option υ

namespace Map

def empty : Map κ υ := fun _ => none
def set (m : Map κ υ) (k : κ) (v : υ) : Map κ υ := Function.update m k (some v)
def delete (m : Map κ υ) (k : κ) : Map κ υ := Function.update m k none
def setAll (m : Map κ υ) (ws : List (κ × υ)) : Map κ υ := ws.foldl (fun m w => m.set w.1 w.2) m
def deleteAll (m : Map κ υ) (ks : List κ) : Map κ υ := ks.foldl delete m

@[simp] theorem setAll_nil (m : Map κ υ) : m.setAll [] = m := rfl

@[simp] theorem setAll_cons (m : Map κ υ) (w : κ × υ) (ws : List (κ × υ)) :
    m.setAll (w :: ws) = (m.set w.1 w.2).setAll ws := rfl

theorem setAll_append (m : Map κ υ) (ws vs : List (κ × υ)) : m.setAll (ws ++ vs) = (m.setAll ws).setAll vs := List.foldl_append

@[simp] theorem deleteAll_nil (m : Map κ υ) : m.deleteAll [] = m := rfl

theorem set_self (m : Map κ υ) (k : κ) (v : υ) : m.set k v k = some v := by simp [set]

variable {k k' : κ} {m : Map κ υ} {ws : List (κ × υ)}

theorem set_of_ne (m : Map κ υ) (v : υ) (h : k' ≠ k) : m.set k v k' = m k' := by
  simp [set, h]

theorem delete_self (m : Map κ υ) (k : κ) : m.delete k k = none := by simp [delete]

theorem delete_of_ne (m : Map κ υ) (h : k' ≠ k) : m.delete k k' = m k' := by
  simp [delete, h]

theorem setAll_of_not_mem (h : k ∉ ws.map Prod.fst) : m.setAll ws k = m k := by
  induction ws generalizing m with
  | nil => rfl
  | cons w ws ih =>
    simp only [map_cons, mem_cons, not_or] at h
    rw [setAll_cons, ih h.2, set_of_ne m w.2 h.1]

theorem setAll_of_mem (h : k ∈ ws.map Prod.fst) : ∃ v, (k, v) ∈ ws ∧ ∀ m : Map κ υ, m.setAll ws k = some v := by
  induction ws with
  | nil => simp at h
  | cons w ws ih =>
    by_cases hk : k ∈ ws.map Prod.fst
    · obtain ⟨v, hv, ha⟩ := ih hk
      exact ⟨v, mem_cons_of_mem w hv, fun m => ha _⟩
    · have hw : k = w.1 := by simpa [hk] using h
      refine ⟨w.2, by simp [hw], fun m => ?_⟩
      rw [setAll_cons, setAll_of_not_mem hk, hw, set_self]

theorem setAll_const (m : Map κ υ) (ks : List κ) (v : υ) (k : κ) :
    m.setAll (ks.map fun k => (k, v)) k = if k ∈ ks then some v else m k := by
  induction ks generalizing m with
  | nil => simp
  | cons a ks ih =>
    rw [map_cons, setAll_cons, ih]
    by_cases hk : k = a
    · simp [hk, set_self]
    · simp [hk, set_of_ne m v hk]

theorem mem_of_setAll_eq_some {v : υ} (h : m.setAll ws k = some v) : (k, v) ∈ ws ∨ m k = some v := by
  by_cases hk : k ∈ ws.map Prod.fst
  · obtain ⟨v', hv, ha⟩ := setAll_of_mem hk
    rw [ha m, Option.some.injEq] at h
    exact .inl (h ▸ hv)
  · rw [setAll_of_not_mem hk] at h
    exact .inr h

theorem setAll_isSome : (m.setAll ws k).isSome ↔ k ∈ ws.map Prod.fst ∨ (m k).isSome := by
  by_cases hk : k ∈ ws.map Prod.fst
  · obtain ⟨v, -, ha⟩ := setAll_of_mem hk
    simp [ha m, hk]
  · rw [setAll_of_not_mem hk]
    simp [hk]

/-- Writes give the same map as from scratch just if every old key is written. -/
theorem setAll_eq_scratch_iff : m.setAll ws = Map.empty.setAll ws ↔ ∀ k, (m k).isSome → k ∈ ws.map Prod.fst := by
  constructor
  · intro h k hk
    by_contra hn
    have hkp := congrFun h k
    rw [setAll_of_not_mem hn, setAll_of_not_mem hn] at hkp
    rw [hkp] at hk
    cases hk
  · intro h
    funext k
    by_cases hk : k ∈ ws.map Prod.fst
    · obtain ⟨v, -, ha⟩ := setAll_of_mem hk
      rw [ha m, ha Map.empty]
    · rw [setAll_of_not_mem hk, setAll_of_not_mem hk]
      cases hm : m k with
      | none => rfl
      | some v => exact absurd (h k (by simp [hm])) hk

end Map

/-! ## Messages -/

/-- A snapshot replaces the map, a delta changes it. -/
structure Message (κ υ : Type) where
  snapshot : Bool
  removed : List κ
  writes : List (κ × υ)

namespace Message
variable (msg : Message κ υ)

def apply (m : Map κ υ) : Map κ υ :=
  ((if msg.snapshot then Map.empty else m).deleteAll msg.removed).setAll msg.writes

def keys : List κ := msg.writes.map Prod.fst
def since (ks : List κ) : List κ := if msg.snapshot then msg.keys else msg.keys ++ ks

variable {msg}

theorem isSome_apply_iff (hr : msg.removed = []) {m : Map κ υ}
    (hm : ∀ k, (m k).isSome ↔ k ∈ ks) (k : κ) : (msg.apply m k).isSome ↔ k ∈ msg.since ks := by
  unfold apply since
  rw [hr, Map.deleteAll_nil, Map.setAll_isSome]
  cases msg.snapshot with
  | true => simp [Map.empty, keys]
  | false => simp [keys, hm]

/-- A copy is what the last message says just if every key since the snapshot is in it. -/
theorem apply_eq_scratch_iff (hr : msg.removed = []) {m : Map κ υ} (hm : ∀ k, (m k).isSome ↔ k ∈ ks) :
    msg.apply m = Map.empty.setAll msg.writes ↔ ∀ k ∈ msg.since ks, k ∈ msg.keys := by
  unfold apply since
  rw [hr, Map.deleteAll_nil, Map.setAll_eq_scratch_iff]
  cases msg.snapshot with
  | true => simp [Map.empty]
  | false =>
    simp only [Bool.false_eq_true, if_false, mem_append]
    constructor
    · rintro h k (hk | hk)
      · exact hk
      · exact h k ((hm k).2 hk)
    · intro h k hk
      exact h k (.inr ((hm k).1 hk))

/-! ### Messages made of items -/

section Items
variable {ι : Type} (writes : ι → List (κ × υ))

def itemKeys (i : ι) : List κ := (writes i).map Prod.fst
def ofItems (snapshot : Bool) (items : List ι) : Message κ υ := ⟨snapshot, [], items.flatMap writes⟩
def itemsSince (snapshot : Bool) (items prev : List ι) : List ι := if snapshot then items else items ++ prev

variable {writes} {snapshot : Bool} {items prev : List ι} {m : Map κ υ}

section
omit [DecidableEq κ]

theorem mem_keys_ofItems {k : κ} : k ∈ (ofItems writes snapshot items).keys ↔ ∃ i ∈ items, k ∈ itemKeys writes i := by
  simp only [keys, ofItems, itemKeys, map_flatMap, mem_flatMap]

theorem mem_since_ofItems {k : κ} : k ∈ (ofItems writes snapshot items).since (prev.flatMap (itemKeys writes)) ↔
      ∃ i ∈ itemsSince snapshot items prev, k ∈ itemKeys writes i := by
  unfold since itemsSince
  cases h : snapshot with
  | true => exact mem_keys_ofItems
  | false =>
    have hs : (ofItems writes false items).snapshot = false := rfl
    simp only [hs, Bool.false_eq_true, if_false, mem_append, mem_flatMap, mem_keys_ofItems]
    constructor
    · rintro (⟨i, hi, hk⟩ | ⟨i, hi, hk⟩)
      · exact ⟨i, .inl hi, hk⟩
      · exact ⟨i, .inr hi, hk⟩
    · rintro ⟨i, hi | hi, hk⟩
      · exact .inl ⟨i, hi, hk⟩
      · exact .inr ⟨i, hi, hk⟩
end

def HoldsItems (writes : ι → List (κ × υ)) (m : Map κ υ) (sent : List ι) : Prop :=
  ∀ k, (m k).isSome ↔ ∃ i ∈ sent, k ∈ itemKeys writes i

theorem HoldsItems.apply (hm : HoldsItems writes m prev) :
    HoldsItems writes ((ofItems writes snapshot items).apply m) (itemsSince snapshot items prev) := by
  intro k
  rw [← mem_since_ofItems]
  refine isSome_apply_iff rfl (fun k => ?_) k
  rw [hm k, mem_flatMap]

theorem HoldsItems.apply_eq_scratch_iff (hm : HoldsItems writes m prev) :
    (ofItems writes snapshot items).apply m = Map.empty.setAll (items.flatMap writes) ↔
      ∀ i ∈ itemsSince snapshot items prev, ∀ k ∈ itemKeys writes i, ∃ j ∈ items, k ∈ itemKeys writes j := by
  have hp : ∀ k, (m k).isSome ↔ k ∈ prev.flatMap (itemKeys writes) := by
    intro k
    rw [hm k, mem_flatMap]
  have hr : (ofItems writes snapshot items).removed = [] := rfl
  have hif := Message.apply_eq_scratch_iff hr hp
  refine hif.trans ?_
  simp only [mem_since_ofItems, mem_keys_ofItems]
  constructor
  · intro h i hi k hk
    exact h k ⟨i, hi, hk⟩
  · rintro h k ⟨i, hi, hk⟩
    exact h i hi k hk

end Items
end Message
end Sukko.Replica
