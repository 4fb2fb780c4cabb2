import Mathlib.Data.Option.Basic
/-
# A lock that expires

One key holds the name of its owner and disappears after a time to live. Set it when it does not exist, extend or delete it
when the caller owns it: each is one piece. A client relies on `HeldUntil`.
-/

namespace Sukko.Lease
variable {κ : Type}

structure Lock (κ : Type) where
  owner : κ
  expires : Nat
deriving DecidableEq

def read (now : Nat) (l : Option (Lock κ)) : Option (Lock κ) := l.filter fun h => now ≤ h.expires

/-- The key has the lock at least until then. -/
def HeldUntil (l : Option (Lock κ)) (k : κ) (t : Nat) : Prop := ∃ h, l = some h ∧ h.owner = k ∧ t ≤ h.expires

variable {k : κ} {l : Option (Lock κ)} {now t ttl : Nat}

theorem read_eq_some {h : Lock κ} : read now l = some h ↔ l = some h ∧ now ≤ h.expires := by
  simp [read, Option.filter_eq_some_iff]

theorem HeldUntil.mono {t' : Nat} (hl : HeldUntil l k t) (ht : t' ≤ t) : HeldUntil l k t' := by
  obtain ⟨h, hl, hk, he⟩ := hl
  exact ⟨h, hl, hk, Nat.le_trans ht he⟩

theorem HeldUntil.read (hl : HeldUntil l k t) (hn : now ≤ t) : ∃ h, Lease.read now l = some h ∧ h.owner = k := by
  obtain ⟨h, hl, hk, he⟩ := hl
  exact ⟨h, read_eq_some.2 ⟨hl, Nat.le_trans hn he⟩, hk⟩

inductive Op
  | acquire
  | renew
  | release
deriving DecidableEq

variable [DecidableEq κ]

/-- One command on the lock; the second component is its answer. -/
def exec (now ttl : Nat) (k : κ) (op : Op) (l : Option (Lock κ)) : Option (Lock κ) × Bool :=
  match op, read now l with
  | .acquire, none => (some ⟨k, now + ttl⟩, true)
  | .acquire, some _ => (l, false)
  | .renew, none => (l, false)
  | .renew, some h => if h.owner = k then (some ⟨k, now + ttl⟩, true) else (l, false)
  | .release, none => (l, false)
  | .release, some h => if h.owner = k then (none, true) else (l, false)

variable {op : Op}

theorem heldUntil_of_granted (hop : op ≠ .release) (h : (exec now ttl k op l).2 = true) :
    HeldUntil (exec now ttl k op l).1 k (now + ttl) := by
  have hn : HeldUntil (some (⟨k, now + ttl⟩ : Lock κ)) k (now + ttl) := ⟨_, rfl, rfl, Nat.le_refl _⟩
  cases op with
  | release => exact absurd rfl hop
  | acquire =>
    cases hr : Lease.read now l with
    | none =>
      simp only [exec, hr]
      exact hn
    | some _ => simp [exec, hr] at h
  | renew =>
    cases hr : Lease.read now l with
    | none => simp [exec, hr] at h
    | some h₀ =>
      by_cases hk : h₀.owner = k
      · simp only [exec, hr, hk, if_true]
        exact hn
      · simp [exec, hr, hk] at h

theorem HeldUntil.exec {k' : κ} (hl : HeldUntil l k t) (hn : now ≤ t) (ht : t ≤ now + ttl) (hop : k' = k → op ≠ .release) :
    HeldUntil (exec now ttl k' op l).1 k t := by
  obtain ⟨h, hr, hk⟩ := hl.read hn
  cases op with
  | acquire =>
    simp only [Lease.exec, hr]
    exact hl
  | renew =>
    by_cases hk' : h.owner = k'
    · simp only [Lease.exec, hr, hk', if_true]
      exact ⟨_, rfl, hk' ▸ hk, ht⟩
    · simp only [Lease.exec, hr, hk', if_false]
      exact hl
  | release =>
    have hk' : h.owner ≠ k' := by
      intro heq
      exact hop (heq.symm.trans hk) rfl
    simp only [Lease.exec, hr, hk', if_false]
    exact hl

theorem exec_owner {h' : Lock κ} (h : (exec now ttl k op l).1 = some h') :
    (op = .acquire ∧ (exec now ttl k op l).2 = true ∧ h'.owner = k) ∨
      (¬ (op = .acquire ∧ (exec now ttl k op l).2 = true) ∧ ∃ h₀, l = some h₀ ∧ h'.owner = h₀.owner) := by
  cases op with
  | acquire =>
    cases hr : Lease.read now l with simp only [exec, hr] at h
    | none =>
      cases h
      exact .inl ⟨rfl, by simp [exec, hr], rfl⟩
    | some _ =>
      exact .inr ⟨by simp [exec, hr], h', h, rfl⟩
  | renew =>
    refine .inr ⟨by simp, ?_⟩
    cases hr : Lease.read now l with
    | none =>
      simp only [exec, hr] at h
      exact ⟨h', h, rfl⟩
    | some h₀ =>
      by_cases hk : h₀.owner = k
      · simp only [exec, hr, hk, if_true] at h
        cases h
        exact ⟨h₀, (read_eq_some.1 hr).1, hk.symm⟩
      · simp only [exec, hr, hk, if_false] at h
        exact ⟨h', h, rfl⟩
  | release =>
    refine .inr ⟨by simp, ?_⟩
    cases hr : Lease.read now l with
    | none =>
      simp only [exec, hr] at h
      exact ⟨h', h, rfl⟩
    | some h₀ =>
      by_cases hk : h₀.owner = k
      · simp [exec, hr, hk] at h
      · simp only [exec, hr, hk, if_false] at h
        exact ⟨h', h, rfl⟩

end Sukko.Lease
