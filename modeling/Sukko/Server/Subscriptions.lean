import Sukko.Lib.GoString
/-
# Subscription sets and the subscription index

Every method runs under the mutex of its object.
-/

namespace Sukko.Server
open List

abbrev Ref := Nat

/-- See `server/connection.go:404`, one client's channels. -/
structure SubscriptionSet where
  channels : List GoStr
  nodup : channels.Nodup
deriving DecidableEq

namespace SubscriptionSet

def empty : SubscriptionSet := ⟨[], List.nodup_nil⟩
def add (s : SubscriptionSet) (ch : GoStr) : SubscriptionSet := ⟨s.channels.insert ch, s.nodup.insert⟩
def addMultiple (s : SubscriptionSet) (chs : List GoStr) : SubscriptionSet := chs.foldl add s
def remove (s : SubscriptionSet) (ch : GoStr) : SubscriptionSet := ⟨s.channels.erase ch, s.nodup.erase ch⟩
def removeMultiple (s : SubscriptionSet) (chs : List GoStr) : SubscriptionSet := chs.foldl remove s
def has (s : SubscriptionSet) (ch : GoStr) : Bool := decide (ch ∈ s.channels)
def count (s : SubscriptionSet) : Nat := s.channels.length

theorem mem_addMultiple {s : SubscriptionSet} {chs : List GoStr} {ch : GoStr} :
    ch ∈ (s.addMultiple chs).channels ↔ ch ∈ s.channels ∨ ch ∈ chs := by
  induction chs generalizing s with
  | nil => simp [addMultiple]
  | cons c chs ih =>
    have hs : s.addMultiple (c :: chs) = (s.add c).addMultiple chs := rfl
    rw [hs, ih, add, mem_insert_iff, mem_cons]
    tauto

theorem mem_removeMultiple {s : SubscriptionSet} {chs : List GoStr} {ch : GoStr} :
    ch ∈ (s.removeMultiple chs).channels ↔ ch ∈ s.channels ∧ ch ∉ chs := by
  induction chs generalizing s with
  | nil => simp [removeMultiple]
  | cons c chs ih =>
    have hs : s.removeMultiple (c :: chs) = (s.remove c).removeMultiple chs := rfl
    rw [hs, ih, remove, s.nodup.mem_erase_iff, mem_cons]
    tauto

end SubscriptionSet

/-- See `connection.go:504`, channel to subscribed clients. -/
structure SubscriptionIndex where
  subscribers : GoStr → List Ref
  nodup : ∀ ch, (subscribers ch).Nodup

namespace SubscriptionIndex

def empty : SubscriptionIndex := ⟨fun _ => [], fun _ => List.nodup_nil⟩
def get (idx : SubscriptionIndex) (ch : GoStr) : List Ref := idx.subscribers ch

def store (idx : SubscriptionIndex) (ch : GoStr) (snapshot : List Ref) (h : snapshot.Nodup) :
    SubscriptionIndex where
  subscribers := Function.update idx.subscribers ch snapshot
  nodup ch' := by
    by_cases he : ch' = ch
    · rw [he, Function.update_self]; exact h
    · rw [Function.update_of_ne he]; exact idx.nodup ch'

def add (idx : SubscriptionIndex) (ch : GoStr) (c : Ref) : SubscriptionIndex :=
  if h : c ∈ idx.subscribers ch then idx
  else idx.store ch (idx.subscribers ch ++ [c]) ((idx.nodup ch).append (List.nodup_singleton c) (by simpa))

def addMultiple (idx : SubscriptionIndex) (chs : List GoStr) (c : Ref) : SubscriptionIndex :=
  chs.foldl (fun idx ch => idx.add ch c) idx

def remove (idx : SubscriptionIndex) (ch : GoStr) (c : Ref) : SubscriptionIndex :=
  idx.store ch ((idx.subscribers ch).erase c) ((idx.nodup ch).erase c)

def removeMultiple (idx : SubscriptionIndex) (chs : List GoStr) (c : Ref) : SubscriptionIndex :=
  chs.foldl (fun idx ch => idx.remove ch c) idx

variable {c d : Ref} {ch ch' : GoStr} {idx : SubscriptionIndex} {chs : List GoStr}

theorem mem_add : d ∈ (idx.add ch c).get ch' ↔ d ∈ idx.get ch' ∨ d = c ∧ ch' = ch := by
  unfold add
  split
  · rename_i hc
    refine ⟨Or.inl, ?_⟩
    rintro (h | ⟨rfl, rfl⟩)
    · exact h
    · exact hc
  · by_cases he : ch' = ch
    · subst he
      simp [get, store]
    · simp [get, store, he]

theorem mem_remove : d ∈ (idx.remove ch c).get ch' ↔ d ∈ idx.get ch' ∧ ¬ (d = c ∧ ch' = ch) := by
  by_cases he : ch' = ch
  · subst he
    simp [get, store, remove, (idx.nodup ch').mem_erase_iff, and_comm]
  · simp [get, store, remove, he]

theorem mem_addMultiple : d ∈ (idx.addMultiple chs c).get ch ↔ d ∈ idx.get ch ∨ d = c ∧ ch ∈ chs := by
  induction chs generalizing idx with
  | nil => simp [addMultiple]
  | cons x chs ih =>
    have hs : idx.addMultiple (x :: chs) c = (idx.add x c).addMultiple chs c := rfl
    rw [hs, ih, mem_add, mem_cons]
    tauto

theorem mem_removeMultiple : d ∈ (idx.removeMultiple chs c).get ch ↔ d ∈ idx.get ch ∧ ¬ (d = c ∧ ch ∈ chs) := by
  induction chs generalizing idx with
  | nil => simp [removeMultiple]
  | cons x chs ih =>
    have hs : idx.removeMultiple (x :: chs) c = (idx.remove x c).removeMultiple chs c := rfl
    rw [hs, ih, mem_remove, mem_cons]
    tauto

end SubscriptionIndex
end Sukko.Server
