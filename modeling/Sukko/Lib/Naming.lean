import Mathlib.Data.List.Pairwise
/-
# Tables whose rows own names

A table is `Exclusive` when identities are distinct and no name has two owners: names may expire, a row may gain a name nobody
else owns, a row with fresh names may be inserted.
-/

namespace Sukko.Naming
open List
variable {ρ ι κ : Type} {key : ρ → ι} {names names' : ρ → κ → Prop} {rows : List ρ}

/-- Two rows with different identities and no common name. -/
structure Apart (key : ρ → ι) (names : ρ → κ → Prop) (t u : ρ) : Prop where
  keys : key t ≠ key u
  names : ∀ x, names t x → ¬names u x

def Exclusive (key : ρ → ι) (names : ρ → κ → Prop) (rows : List ρ) : Prop := rows.Pairwise (Apart key names)

theorem Apart.symm {t u : ρ} (h : Apart key names t u) : Apart key names u t := ⟨h.keys.symm, fun x hu ht => h.names x ht hu⟩
theorem Exclusive.nil : Exclusive key names ([] : List ρ) := List.Pairwise.nil

section
variable (h : Exclusive key names rows)
include h

theorem Exclusive.apart {t u : ρ} (ht : t ∈ rows) (hu : u ∈ rows) (hne : t ≠ u) : Apart key names t u := by
  have hs : Std.Symm (Apart key names) := ⟨fun _ _ => Apart.symm⟩
  exact List.Pairwise.forall h ht hu hne

theorem Exclusive.unique {t u : ρ} {x : κ} (ht : t ∈ rows) (hu : u ∈ rows) (htx : names t x) (hux : names u x) : t = u := by
  by_contra hne
  exact (h.apart ht hu hne).names x htx hux

theorem Exclusive.mono (hi : ∀ t x, names' t x → names t x) : Exclusive key names' rows :=
  List.Pairwise.imp (fun ha => ⟨ha.keys, fun x ht hu => ha.names x (hi _ x ht) (hi _ x hu)⟩) h

theorem Exclusive.shrink (f : ρ → ρ) (hk : ∀ t, key (f t) = key t)
    (hn : ∀ t ∈ rows, ∀ x, names (f t) x → names t x) : Exclusive key names (rows.map f) := by
  unfold Exclusive
  rw [pairwise_map]
  refine List.Pairwise.imp_of_mem (fun {t u} ht hu ha => ⟨?_, ?_⟩) h
  · rw [hk, hk]
    exact ha.keys
  · intro x hx hx'
    exact ha.names x (hn t ht x hx) (hn u hu x hx')

theorem Exclusive.gain (f : ρ → ρ) (i : ι) (n : κ) (hk : ∀ t, key (f t) = key t)
    (ho : ∀ t ∈ rows, key t ≠ i → f t = t) (hn : ∀ t ∈ rows, ∀ x, names (f t) x → names t x ∨ x = n)
    (hf : ∀ t ∈ rows, key t ≠ i → ¬names t n) : Exclusive key names (rows.map f) := by
  unfold Exclusive
  rw [pairwise_map]
  refine List.Pairwise.imp_of_mem (fun {t u} ht hu ha => ⟨?_, ?_⟩) h
  · rw [hk, hk]
    exact ha.keys
  · intro x hx hx'
    -- at most one of the two rows is the one that changes
    by_cases hti : key t = i
    · have hui : key u ≠ i := fun hui => ha.keys (hti.trans hui.symm)
      rw [ho u hu hui] at hx'
      rcases hn t ht x hx with hx | rfl
      · exact ha.names x hx hx'
      · exact hf u hu hui hx'
    · rw [ho t ht hti] at hx
      rcases hn u hu x hx' with hx' | rfl
      · exact ha.names x hx hx'
      · exact hf t ht hti hx

theorem Exclusive.insert (r : ρ) (hk : ∀ t ∈ rows, key t ≠ key r)
    (hf : ∀ t ∈ rows, ∀ x, names r x → ¬names t x) : Exclusive key names (rows ++ [r]) := by
  unfold Exclusive
  rw [pairwise_append]
  refine ⟨h, pairwise_singleton _ r, ?_⟩
  intro t ht u hu
  rw [mem_singleton.1 hu]
  exact ⟨hk t ht, fun x htx hrx => hf t ht x hrx htx⟩

end

end Sukko.Naming
