import Mathlib.Data.List.FinRange
import Mathlib.Data.List.Perm.Basic
/-
# What a finite family of slots holds

Each of `n` parts holds at most one item; `contents` lists them. The lemmas say what `Function.update` does to the list: as a
permutation, and counted.
-/

namespace Sukko.Slots
open List Function
variable {n : Nat} {α : Type}

/-- What the slots hold, from the first to the last. -/
def contents (f : Fin n → Option α) : List α := (List.finRange n).filterMap f

theorem contents_update (f : Fin n → Option α) (i : Fin n) (o : Option α) :
    (contents (Function.update f i o)).Perm (o.toList ++ ((List.finRange n).erase i).filterMap f) := by
  refine ((perm_cons_erase (mem_finRange i)).filterMap _).trans ?_
  have hr : ((List.finRange n).erase i).filterMap (Function.update f i o) = ((List.finRange n).erase i).filterMap f := by
    refine filterMap_congr fun j hj => ?_
    have hne : j ≠ i := ((nodup_finRange n).mem_erase_iff.1 hj).1
    rw [update_of_ne hne]
  rw [filterMap_cons, update_self, hr]
  cases o <;> exact List.Perm.refl _

theorem contents_exchange (f : Fin n → Option α) (i : Fin n) (o : Option α) :
    ∃ rest, (contents f).Perm ((f i).toList ++ rest) ∧ (contents (Function.update f i o)).Perm (o.toList ++ rest) := by
  refine ⟨((List.finRange n).erase i).filterMap f, ?_, contents_update f i o⟩
  have hs := contents_update f i (f i)
  rwa [update_eq_self] at hs

theorem count_contents_update [DecidableEq α] (f : Fin n → Option α) (i : Fin n) (o : Option α) (a : α) :
    (contents (Function.update f i o)).count a + (f i).toList.count a = (contents f).count a + o.toList.count a := by
  obtain ⟨rest, hold, hn⟩ := contents_exchange f i o
  rw [hold.count_eq, hn.count_eq, count_append, count_append]
  omega

end Sukko.Slots
