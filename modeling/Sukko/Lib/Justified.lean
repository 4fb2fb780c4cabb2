import Mathlib.Data.List.Basic
/-
# Lists whose elements are justified by what precedes them

`Justified P l`: every element of `l` stands in the relation `P` to the elements before it.
-/

namespace Sukko
open List
variable {α : Type} {P Q : List α → α → Prop} {l : List α}

/-- Every element is justified by those before it. -/
def Justified (P : List α → α → Prop) (l : List α) : Prop := ∀ before a after, l = before ++ a :: after → P before a

theorem justified_nil : Justified P ([] : List α) := by
  intro before a after h
  cases before <;> cases h

theorem justified_cons {a : α} : Justified P (a :: l) ↔ P [] a ∧ Justified (fun before => P (a :: before)) l := by
  constructor
  · intro h
    exact ⟨h [] a l rfl, fun before b after hl => h (a :: before) b after (by rw [hl]; rfl)⟩
  · rintro ⟨ha, h⟩ before b after hl
    cases before with
    | nil =>
      cases hl
      exact ha
    | cons c before =>
      cases hl
      exact h before b after rfl

theorem justified_concat {a : α} : Justified P (l ++ [a]) ↔ Justified P l ∧ P l a := by
  constructor
  · intro h
    exact ⟨fun before b after hl => h before b (after ++ [a]) (by rw [hl]; simp), h l a [] rfl⟩
  · rintro ⟨h, ha⟩ before b after hl
    rcases eq_nil_or_concat after with rfl | ⟨after', c, rfl⟩
    · cases append_inj_left' hl rfl
      cases append_inj_right' hl rfl
      exact ha
    · have hc : l ++ [a] = (before ++ b :: after') ++ [c] := by simpa using hl
      exact h before b after' (append_inj_left' hc rfl)

theorem Justified.exists_of_mem (h : Justified P l) {a : α} (ha : a ∈ l) : ∃ before, P before a := by
  obtain ⟨before, after, hl⟩ := append_of_mem ha
  exact ⟨before, h before a after hl⟩

theorem Justified.mono (h : Justified P l) (hPQ : ∀ before, ∀ a ∈ l, P before a → Q before a) : Justified Q l := by
  intro before a after hl
  exact hPQ before a (by simp [hl]) (h before a after hl)

end Sukko
