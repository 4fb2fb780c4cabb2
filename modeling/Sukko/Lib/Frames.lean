import Mathlib.Data.List.Infix
/-
# Words between a prefix and a suffix

`Framed pre suf k`: the word `k` begins with `pre` and ends with `suf`, which may overlap. `Fills`: a word is the pattern with
something in each gap.
-/

namespace Sukko.Frames
open List
variable {α : Type}

def Framed (pre suf k : List α) : Prop := pre <+: k ∧ suf <:+ k

theorem framed_append (pre z suf : List α) : Framed pre suf (pre ++ z ++ suf) := by
  constructor
  · rw [append_assoc]
    exact prefix_append pre (z ++ suf)
  · exact suffix_append (pre ++ z) suf

variable {b : α} {k pre r s suf x y : List α}

theorem Framed.mono (h : Framed pre suf k) (hr : r <+: pre) (hs : s <:+ suf) : Framed r s k := ⟨hr.trans h.1, hs.trans h.2⟩

/-! ## Overlaps -/

variable [DecidableEq α]

def overlaps (pre suf : List α) : List (List α) :=
  ((List.range suf.length).filter fun j => (suf.take (j + 1)).isSuffixOf pre).map fun j => pre ++ suf.drop (j + 1)

theorem mem_overlaps : k ∈ overlaps pre suf ↔ ∃ j < suf.length, suf.take (j + 1) <:+ pre ∧ k = pre ++ suf.drop (j + 1) := by
  unfold overlaps
  simp only [mem_map, mem_filter, mem_range, isSuffixOf_iff_suffix]
  constructor
  · rintro ⟨j, ⟨hj, hs⟩, rfl⟩
    exact ⟨j, hj, hs, rfl⟩
  · rintro ⟨j, hj, hs, rfl⟩
    exact ⟨j, ⟨hj, hs⟩, rfl⟩

theorem framed_of_mem_overlaps (h : k ∈ overlaps pre suf) : Framed pre suf k := by
  obtain ⟨j, -, ⟨a, ha⟩, rfl⟩ := mem_overlaps.1 h
  constructor
  · exact prefix_append pre _
  · refine ⟨a, ?_⟩
    rw [← ha, append_assoc, take_append_drop]

theorem mem_overlaps_of_framed (h : Framed pre suf k) (hl : k.length < pre.length + suf.length) : k ∈ overlaps pre suf := by
  obtain ⟨⟨y, rfl⟩, x, hx⟩ := h
  have hle : y.length < suf.length := by
    rw [length_append] at hl
    omega
  -- the suffix is the overlap and then `y`
  have hy : y <:+ suf := suffix_of_suffix_length_le (suffix_append pre y) ⟨x, hx⟩ (le_of_lt hle)
  obtain ⟨w, rfl⟩ := hy
  have hw : 0 < w.length := by
    rw [length_append] at hle
    omega
  refine mem_overlaps.2 ⟨w.length - 1, by rw [length_append]; omega, ?_, ?_⟩
  · have hp : x ++ w = pre := append_cancel_right ((append_assoc x w y).trans hx)
    rw [Nat.sub_add_cancel hw, take_left]
    exact ⟨x, hp⟩
  · rw [Nat.sub_add_cancel hw, drop_left]

theorem framed_iff : Framed pre suf k ↔ (∃ z, k = pre ++ z ++ suf) ∨ k ∈ overlaps pre suf := by
  constructor
  · intro h
    by_cases hl : k.length < pre.length + suf.length
    · exact .inr (mem_overlaps_of_framed h hl)
    · obtain ⟨⟨y, rfl⟩, hs⟩ := h
      have hle : suf.length ≤ y.length := by
        rw [length_append] at hl
        omega
      obtain ⟨z, rfl⟩ := suffix_of_suffix_length_le hs (suffix_append pre y) hle
      exact .inl ⟨z, (append_assoc pre z suf).symm⟩
  · rintro (⟨z, rfl⟩ | h)
    · exact framed_append pre z suf
    · exact framed_of_mem_overlaps h

theorem forall_framed_iff {P : List α → Prop} :
    (∀ k, Framed pre suf k → P k) ↔ (∀ z, P (pre ++ z ++ suf)) ∧ ∀ k ∈ overlaps pre suf, P k := by
  constructor
  · intro h
    exact ⟨fun z => h _ (framed_append pre z suf), fun k hk => h k (framed_of_mem_overlaps hk)⟩
  · rintro ⟨hz, hk⟩ k hf
    rcases framed_iff.1 hf with ⟨z, rfl⟩ | hov
    · exact hz z
    · exact hk k hov

/-! ## A fresh letter -/

omit [DecidableEq α]

theorem prefix_of_fresh (hb : b ∉ r) (h : r <+: x ++ b :: y) : r <+: x := by
  rcases prefix_or_prefix_of_prefix h (prefix_append x (b :: y)) with hr | hx
  · exact hr
  obtain ⟨w, rfl⟩ := hx
  cases w with
  | nil => rw [append_nil]
  | cons c w =>
    -- a longer prefix goes on with the fresh letter
    obtain ⟨u, hu⟩ := h
    rw [append_assoc] at hu
    obtain ⟨rfl, -⟩ := List.cons.inj (append_cancel_left hu)
    exact absurd (mem_append_right x mem_cons_self) hb

theorem suffix_of_fresh (hb : b ∉ s) (h : s <:+ x ++ b :: y) : s <:+ y := by
  have hr : s.reverse <+: y.reverse ++ b :: x.reverse := by
    have := reverse_prefix.2 h
    simpa using this
  exact reverse_prefix.1 (prefix_of_fresh (by simpa using hb) hr)

theorem framed_fresh_iff (hr : b ∉ r) (hs : b ∉ s) : Framed r s (x ++ [b] ++ y) ↔ r <+: x ∧ s <:+ y := by
  have ha : x ++ [b] ++ y = x ++ b :: y := by simp
  constructor
  · rintro ⟨hp, hsf⟩
    rw [ha] at hp hsf
    exact ⟨prefix_of_fresh hr hp, suffix_of_fresh hs hsf⟩
  · rintro ⟨hp, hsf⟩
    exact (framed_append x [b] y).mono hp hsf

/-! ## Words with gaps -/

inductive Token (α : Type)
  | lit (a : α)
  | gap
deriving DecidableEq

/-- The word is the pattern with a word put into each gap. -/
inductive Fills : List (Token α) → List α → Prop
  | nil : Fills [] []
  | lit (a : α) {ts : List (Token α)} {k : List α} (h : Fills ts k) : Fills (.lit a :: ts) (a :: k)
  | gap (w : List α) {ts : List (Token α)} {k : List α} (h : Fills ts k) : Fills (.gap :: ts) (w ++ k)

def Token.spell (g : α) : Token α → α
  | .lit a => a
  | .gap => g

variable {ts us : List (Token α)}

theorem Fills.append {l : List α} (h : Fills ts k) (h' : Fills us l) : Fills (ts ++ us) (k ++ l) := by
  induction h with
  | nil => exact h'
  | lit a _ ih => exact .lit a ih
  | gap w _ ih =>
    rw [append_assoc]
    exact .gap w ih

theorem Fills.split (h : Fills (ts ++ us) k) : ∃ a b, k = a ++ b ∧ Fills ts a ∧ Fills us b := by
  induction ts generalizing k with
  | nil => exact ⟨[], k, rfl, .nil, h⟩
  | cons t ts ih =>
    cases h with
    | lit c h =>
      obtain ⟨a, b, rfl, ha, hb⟩ := ih h
      exact ⟨c :: a, b, rfl, .lit c ha, hb⟩
    | gap w h =>
      obtain ⟨a, b, rfl, ha, hb⟩ := ih h
      exact ⟨w ++ a, b, (append_assoc w a b).symm, .gap w ha, hb⟩

theorem fills_lit {w : List α} : Fills (w.map .lit) k ↔ k = w := by
  constructor
  · intro h
    induction w generalizing k with
    | nil =>
      cases h
      rfl
    | cons a w ih =>
      cases h with
      | lit _ h => rw [ih h]
  · rintro rfl
    induction k with
    | nil => exact .nil
    | cons a k ih => exact .lit a ih

theorem fills_spell (g : α) (ts : List (Token α)) : Fills ts (ts.map (Token.spell g)) := by
  induction ts with
  | nil => exact .nil
  | cons t ts ih =>
    cases t with
    | lit a => exact .lit a ih
    | gap => exact .gap [g] ih

theorem Fills.count_le [DecidableEq α] (h : Fills ts k) (a : α) : ts.count (.lit a) ≤ k.count a := by
  induction h with
  | nil => exact Nat.le_refl _
  | lit c _ ih =>
    by_cases hc : c = a
    · subst hc
      simpa using ih
    · have hne : Token.lit c ≠ .lit a := fun heq => hc (Token.lit.inj heq)
      simpa [count_cons_of_ne hc, count_cons_of_ne hne] using ih
  | gap w _ ih =>
    rw [count_append, count_cons_of_ne (by simp)]
    omega

theorem count_spell [DecidableEq α] {g a : α} (ha : a ≠ g) (ts : List (Token α)) :
    (ts.map (Token.spell g)).count a = ts.count (.lit a) := by
  induction ts with
  | nil => rfl
  | cons t ts ih =>
    cases t with
    | lit c =>
      by_cases hc : c = a
      · subst hc
        simp [Token.spell, ih]
      · have hne : Token.lit c ≠ .lit a := fun heq => hc (Token.lit.inj heq)
        simp [Token.spell, count_cons_of_ne hc, count_cons_of_ne hne, ih]
    | gap => simp [Token.spell, count_cons_of_ne (Ne.symm ha), ih]

theorem eq_lit_of_spell {g : α} (h : g ∉ ts.map (Token.spell g)) : ts = (ts.map (Token.spell g)).map .lit := by
  induction ts with
  | nil => rfl
  | cons t ts ih =>
    rw [map_cons, mem_cons, not_or] at h
    cases t with
    | lit a => exact congrArg (.lit a :: ·) (ih h.2)
    | gap => exact absurd rfl h.1

end Sukko.Frames
