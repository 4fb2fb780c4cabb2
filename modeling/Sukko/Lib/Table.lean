import Mathlib.Logic.Relation
import Mathlib.Data.List.Nodup
/-
# Tables whose rows are never removed

A write inserts a row under a fresh key, or changes rows in place without touching their keys. So keys stay unique, rows stay
good (`Writes.valid`), and no key disappears (`Writes.keys_subset`).
-/

namespace Sukko.Table
open List
variable {ρ κ : Type} (key : ρ → κ) (Good : ρ → Prop)

inductive Write : List ρ → List ρ → Prop
  | insert {rows : List ρ} (r : ρ) (hkey : key r ∉ rows.map key) (hgood : Good r) : Write rows (rows ++ [r])
  | modify {rows : List ρ} (f : ρ → ρ) (hkey : ∀ r, key (f r) = key r) (hgood : ∀ r, Good r → Good (f r)) :
      Write rows (rows.map f)

abbrev Writes : List ρ → List ρ → Prop := Relation.ReflTransGen (Write key Good)

/-- Keys are unique and rows good. -/
structure Valid (rows : List ρ) : Prop where
  nodup : (rows.map key).Nodup
  good : ∀ r ∈ rows, Good r

variable {key Good} {rows rows' : List ρ}

theorem Valid.nil : Valid key Good [] := ⟨List.nodup_nil, by simp⟩

theorem Valid.eq_of_key (hv : Valid key Good rows) {r r' : ρ} (hr : r ∈ rows) (hr' : r' ∈ rows)
    (h : key r = key r') : r = r' := List.inj_on_of_nodup_map hv.nodup hr hr' h

theorem map_key_map {f : ρ → ρ} (hk : ∀ r, key (f r) = key r) : (rows.map f).map key = rows.map key := by
  rw [map_map]
  exact map_congr_left fun r _ => hk r

/-- **One write** keeps a table valid. -/
theorem Write.valid (h : Write key Good rows rows') (hv : Valid key Good rows) : Valid key Good rows' := by
  cases h with
  | insert r hk hg =>
    refine ⟨?_, ?_⟩
    · rw [map_append]
      refine List.Nodup.append hv.nodup (nodup_singleton _) ?_
      simpa using hk
    · exact forall_mem_append.2 ⟨hv.good, forall_mem_singleton.2 hg⟩
  | modify f hk hg =>
    refine ⟨by rw [map_key_map hk]; exact hv.nodup, ?_⟩
    intro r' hr'
    obtain ⟨r, hr, rfl⟩ := mem_map.1 hr'
    exact hg r (hv.good r hr)

theorem Write.keys_subset (h : Write key Good rows rows') : rows.map key ⊆ rows'.map key := by
  cases h with
  | insert r hky hg => simp
  | modify f hky hg => rw [map_key_map hky]; exact fun _ hk => hk

/-- **Any writes** keep a table valid. -/
theorem Writes.valid (h : Writes key Good rows rows') (hv : Valid key Good rows) : Valid key Good rows' := by
  induction h with
  | refl => exact hv
  | tail _ hw ih => exact hw.valid ih

theorem Writes.keys_subset (h : Writes key Good rows rows') : rows.map key ⊆ rows'.map key := by
  induction h with
  | refl => exact fun _ hk => hk
  | tail _ hw ih => exact fun k hk => hw.keys_subset (ih hk)

end Sukko.Table
