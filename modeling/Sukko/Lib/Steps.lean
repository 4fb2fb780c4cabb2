import Mathlib.Algebra.BigOperators.Fin
/-
# Labelled step functions and their runs

A component is one function `step : σ → α → Option σ`: the label says which atomic statement executes next and carries every
choice of the environment; `none` means it is not enabled. A run is a list of labels, so "for every interleaving" is "for every
list of labels".
-/

namespace Sukko.Steps
open List
variable {σ α : Type}

def run (step : σ → α → Option σ) : σ → List α → Option σ
  | s, [] => some s
  | s, a :: as => (step s a).bind fun s' => run step s' as

/-- Every step of the run is taken in a state that satisfies `ok`. -/
def Along (step : σ → α → Option σ) (ok : σ → α → Prop) : σ → List α → Prop
  | _, [] => True
  | s, a :: as => ok s a ∧ (step s a).elim True fun s' => Along step ok s' as

instance Along.decidable (step : σ → α → Option σ) (ok : σ → α → Prop) [∀ s a, Decidable (ok s a)] :
    ∀ s as, Decidable (Along step ok s as)
  | _, [] => isTrue trivial
  | s, a :: as =>
    have : Decidable ((step s a).elim True fun s' => Along step ok s' as) :=
      match step s a with
      | some s' => Along.decidable step ok s' as
      | none => isTrue trivial
    inferInstanceAs (Decidable (_ ∧ _))

variable {step : σ → α → Option σ} {as bs : List α} {ok : σ → α → Prop} {s t : σ}

/-- A guarded step is taken exactly when its guard holds. -/
theorem guarded {c : Prop} [Decidable c] : (if c then some s else none) = some t ↔ c ∧ s = t := by simp

theorem run_cons {a : α} : run step s (a :: as) = some t ↔ ∃ s', step s a = some s' ∧ run step s' as = some t := by
  simp [run, Option.bind_eq_some_iff]

theorem run_append (s : σ) (as bs : List α) : run step s (as ++ bs) = (run step s as).bind fun t => run step t bs := by
  induction as generalizing s with
  | nil => rfl
  | cons a as ih =>
    simp only [cons_append, run, Option.bind_assoc]
    congr 1
    funext s'
    exact ih s'

theorem along_append : Along step ok s (as ++ bs) ↔ Along step ok s as ∧ ∀ t, run step s as = some t → Along step ok t bs := by
  induction as generalizing s with
  | nil => simp [Along, run]
  | cons a as ih =>
    cases hs : step s a with
    | none => simp [Along, run, hs]
    | some s' => simp [Along, run, hs, ih, and_assoc]

/-- **Invariant rule under a side condition.** What every `ok` step keeps, every run of `ok` steps
keeps. -/
theorem run_invariant_along (Inv : σ → Prop) (hst : ∀ s a s', Inv s → ok s a → step s a = some s' → Inv s') (h0 : Inv s)
    (hok : Along step ok s as) (hr : run step s as = some t) : Inv t := by
  induction as generalizing s with
  | nil => cases hr; exact h0
  | cons a as ih =>
    obtain ⟨s', hs, ht⟩ := run_cons.1 hr
    obtain ⟨hn, hl⟩ := hok
    rw [hs] at hl
    exact ih (hst s a s' h0 hn hs) hl ht

theorem along_of_forall (hok : ∀ a ∈ as, ∀ s, ok s a) (s : σ) : Along step ok s as := by
  induction as generalizing s with
  | nil => trivial
  | cons a as ih =>
    refine ⟨hok a mem_cons_self s, ?_⟩
    cases step s a with
    | none => trivial
    | some s' => exact ih (fun b hb => hok b (mem_cons_of_mem a hb)) s'

/-- **Invariant rule.** What every step keeps, every run keeps. -/
theorem run_invariant (Inv : σ → Prop) (hs : ∀ s a s', Inv s → step s a = some s' → Inv s') (h0 : Inv s)
    (hr : run step s as = some t) : Inv t := by
  have hok : Along step (fun _ _ => True) s as := along_of_forall (fun _ _ _ => trivial) s
  exact run_invariant_along Inv (fun s a s' hi _ => hs s a s' hi) h0 hok hr

/-- **Invariant rule with a record.** The invariant speaks of what the labels have brought in so far. -/
theorem run_invariant_recorded {β : Type} (record : α → List β) {ok : α → Prop} (Inv : List β → σ → Prop)
    (hst : ∀ bs s a s', Inv bs s → ok a → step s a = some s' → Inv (bs ++ record a) s') {bs : List β} (h0 : Inv bs s)
    (hok : ∀ a ∈ as, ok a) (hr : run step s as = some t) : Inv (bs ++ as.flatMap record) t := by
  induction as generalizing bs s with
  | nil =>
    cases hr
    simpa using h0
  | cons a as ih =>
    obtain ⟨s', hs, ht⟩ := run_cons.1 hr
    have hn := ih (hst bs s a s' h0 (hok a mem_cons_self) hs) (fun b hb => hok b (mem_cons_of_mem a hb)) ht
    rwa [append_assoc, ← flatMap_cons] at hn

theorem step_of_mem_run {a : α} (hr : run step s as = some t) (ha : a ∈ as) : ∃ u u', step u a = some u' := by
  induction as generalizing s with
  | nil => cases ha
  | cons b as ih =>
    obtain ⟨s', hs, ht⟩ := run_cons.1 hr
    rcases mem_cons.1 ha with rfl | ha
    · exact ⟨s, s', hs⟩
    · exact ih ht ha

theorem exists_run {P : σ → Prop} [DecidablePred P] (h : (run step s as).any (fun t => P t) = true) :
    ∃ t, run step s as = some t ∧ P t := by
  obtain ⟨t, ht, hp⟩ := (Option.any_eq_true _ _).1 h
  exact ⟨t, ht, of_decide_eq_true hp⟩

theorem exists_two_runs {P : σ → σ → Prop} [∀ t u, Decidable (P t u)]
    (h : (run step s as).any (fun t => (run step t bs).any fun u => P t u) = true) :
    ∃ t u, run step s as = some t ∧ run step t bs = some u ∧ P t u := by
  obtain ⟨t, ht, h⟩ := (Option.any_eq_true _ _).1 h
  obtain ⟨u, hu, hp⟩ := (Option.any_eq_true _ _).1 h
  exact ⟨t, u, ht, hu, of_decide_eq_true hp⟩

end Sukko.Steps
