import Sukko.Lib.Replica
/-
# Ledgers of entries that expire

A delivery first forgets what has expired and then adds and removes in order. Against the log of writes a ledger is sound
(`Recorded`), and complete (`Covered`) as long as no write replaces an entry by a lesser one.
-/

namespace Sukko.Ledger
open Replica List Function
variable {κ υ : Type}

inductive Write (κ υ : Type) where
  | add (k : κ) (v : υ)
  | remove (k : κ)
deriving DecidableEq

def Write.key : Write κ υ → κ
  | .add k _ => k
  | .remove k => k

-- `exp` is when an entry expires
variable (exp : υ → Int)

def Write.effective (now : Int) : Write κ υ → Bool
  | .add _ v => decide (now < exp v)
  | .remove _ => true

def sweep (now : Int) (m : Map κ υ) : Map κ υ := fun k => (m k).filter fun v => decide (now < exp v)

/-- The entry was added under the key and the key not removed since. -/
def Standing (log : List (Write κ υ)) (k : κ) (v : υ) : Prop :=
  ∃ pre post, log = pre ++ .add k v :: post ∧ .remove k ∉ post

theorem standing_nil (k : κ) (v : υ) : ¬ Standing [] k v := by
  rintro ⟨pre, post, h, -⟩
  cases pre <;> cases h

variable {k : κ} {v : υ} {w : Write κ υ}

theorem standing_concat {log : List (Write κ υ)} :
    Standing (log ++ [w]) k v ↔ w = .add k v ∨ Standing log k v ∧ w ≠ .remove k := by
  constructor
  · rintro ⟨pre, post, h, hp⟩
    rcases eq_nil_or_concat post with rfl | ⟨post', w', rfl⟩
    · exact .inl (append_inj_right' h rfl |> singleton_inj.1)
    · have hc : log ++ [w] = (pre ++ .add k v :: post') ++ [w'] := by simpa using h
      have hl := append_inj_left' hc rfl
      have hw := singleton_inj.1 (append_inj_right' hc rfl)
      simp only [concat_eq_append, mem_append, mem_singleton, not_or] at hp
      exact .inr ⟨⟨pre, post', hl, hp.1⟩, hw ▸ Ne.symm hp.2⟩
  · rintro (rfl | ⟨⟨pre, post, rfl, hp⟩, hw⟩)
    · exact ⟨log, [], rfl, by simp⟩
    · refine ⟨pre, post ++ [w], by simp, ?_⟩
      simp only [mem_append, mem_singleton, not_or]
      exact ⟨hp, Ne.symm hw⟩

def Recorded (m : Map κ υ) (log : List (Write κ υ)) : Prop := ∀ k v, m k = some v → Standing log k v

def Covered (le : υ → υ → Prop) (now : Int) (m : Map κ υ) (log : List (Write κ υ)) : Prop :=
  ∀ k v, Standing log k v → now < exp v → ∃ v', m k = some v' ∧ le v v'

def Raises (le : υ → υ → Prop) (now : Int) (m : Map κ υ) : Write κ υ → Prop
  | .add k v => now < exp v → ∀ old, m k = some old → le old v
  | .remove _ => True

variable {exp : υ → Int} {le : υ → υ → Prop} {now : Int} {m m' : Map κ υ} {log : List (Write κ υ)}

theorem sweep_eq_some : sweep exp now m k = some v ↔ m k = some v ∧ now < exp v := by
  simp [sweep, Option.filter_eq_some_iff]

theorem Recorded.sweep (h : Recorded m log) : Recorded (sweep exp now m) log := fun k v hv => h k v (sweep_eq_some.1 hv).1

theorem Covered.sweep {t : Int} (hle : ∀ v v', le v v' → exp v ≤ exp v') (h : Covered exp le t m log) (ht : t ≤ now) :
    Covered exp le now (sweep exp now m) log := by
  intro k v hst hv
  obtain ⟨v', hm, hc⟩ := h k v hst (by omega)
  have := hle v v' hc
  exact ⟨v', sweep_eq_some.2 ⟨hm, by omega⟩, hc⟩

/-! ## Writes -/

section Writes
variable [DecidableEq κ]

def Write.apply (exp : υ → Int) (now : Int) (m : Map κ υ) (w : Write κ υ) : Map κ υ :=
  match w with
  | .add k v => if now < exp v then m.set k v else m
  | .remove k => m.delete k

def writeAll (exp : υ → Int) (now : Int) (m : Map κ υ) (ws : List (Write κ υ)) : Map κ υ := ws.foldl (Write.apply exp now) m

theorem apply_add_self (h : now < exp v) : Write.apply exp now m (.add k v) k = some v := by
  simp [Write.apply, h, Map.set_self]

theorem apply_remove_self (k : κ) : Write.apply exp now m (.remove k) k = none := by
  simp [Write.apply, Map.delete]

theorem apply_of_ne (h : k ≠ w.key) : Write.apply exp now m w k = m k := by
  cases w with
  | add k' v =>
    simp only [Write.apply]
    split
    · exact Map.set_of_ne m v h
    · rfl
  | remove k' => simp only [Write.apply, Map.delete]; exact update_of_ne h _ _

theorem apply_of_not_effective (h : w.effective exp now = false) : Write.apply exp now m w = m := by
  cases w with
  | add k v => simp only [Write.effective, decide_eq_false_iff_not] at h; simp [Write.apply, h]
  | remove k => cases h

theorem Recorded.apply (h : Recorded m log) (w : Write κ υ) :
    Recorded (w.apply exp now m) (log ++ [w].filter (·.effective exp now)) := by
  intro k v hv
  cases hw : w.effective exp now with
  | false =>
    rw [apply_of_not_effective hw] at hv
    simpa [hw] using h k v hv
  | true =>
    simp only [filter_cons, hw, if_true, filter_nil, standing_concat]
    by_cases hk : k = w.key
    · subst hk
      cases w with
      | add k' v' =>
        have hl : now < exp v' := of_decide_eq_true hw
        rw [Write.key, apply_add_self hl] at hv
        cases hv
        exact .inl rfl
      | remove k' => rw [Write.key, apply_remove_self] at hv; cases hv
    · rw [apply_of_ne hk] at hv
      exact .inr ⟨h k v hv, fun heq => hk (heq ▸ rfl)⟩

theorem Covered.apply (hr : ∀ v, le v v) (ht : ∀ u v w, le u v → le v w → le u w) (h : Covered exp le now m log)
    (hw : Raises exp le now m w) : Covered exp le now (w.apply exp now m) (log ++ [w].filter (·.effective exp now)) := by
  intro k v hst hv
  cases hwf : w.effective exp now with
  | false =>
    rw [apply_of_not_effective hwf]
    exact h k v (by simpa [hwf] using hst) hv
  | true =>
    simp only [filter_cons, hwf, if_true, filter_nil, standing_concat] at hst
    rcases hst with rfl | ⟨hst, hne⟩
    · exact ⟨v, apply_add_self hv, hr v⟩
    obtain ⟨v', hm, hc⟩ := h k v hst hv
    by_cases hk : k = w.key
    · subst hk
      cases w with
      | add k' u =>
        have hl : now < exp u := of_decide_eq_true hwf
        exact ⟨u, apply_add_self hl, ht v v' u hc (hw hl v' hm)⟩
      | remove k' => exact absurd rfl hne
    · exact ⟨v', by rw [apply_of_ne hk]; exact hm, hc⟩

/-! ## Independence of keys -/

def AgreeOn (p : κ → Bool) (m m' : Map κ υ) : Prop := ∀ k, p k = true → m k = m' k

omit [DecidableEq κ] in
theorem AgreeOn.sweep {p : κ → Bool} (h : AgreeOn p m m') : AgreeOn p (sweep exp now m) (sweep exp now m') := by
  intro k hk
  simp only [Ledger.sweep, h k hk]

/-- **Keys are independent.** Leaving out the writes to other keys changes nothing for these. -/
theorem AgreeOn.writeAll {p : κ → Bool} (h : AgreeOn p m m') (ws : List (Write κ υ)) :
    AgreeOn p (writeAll exp now m ws) (writeAll exp now m' (ws.filter fun w => p w.key)) := by
  induction ws generalizing m m' with
  | nil => exact h
  | cons w ws ih =>
    cases hp : p w.key with
    | true =>
      simp only [filter_cons, hp, if_true]
      refine ih fun k hk => ?_
      by_cases hkw : k = w.key
      · subst hkw
        cases w with
        | add k v => simp only [Write.apply]; split <;> simp [Map.set, Write.key, h k hk]
        | remove k => simp [Write.apply, Map.delete, Write.key]
      · rw [apply_of_ne hkw, apply_of_ne hkw, h k hk]
    | false =>
      simp only [filter_cons, hp]
      refine ih fun k hk => ?_
      have hkw : k ≠ w.key := fun heq => by rw [heq, hp] at hk; cases hk
      rw [apply_of_ne hkw, h k hk]

end Writes
end Sukko.Ledger
