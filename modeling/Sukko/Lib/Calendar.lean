import Mathlib.Order.Monotone.Basic
/-
# The Gregorian calendar by month numbers

Months are numbered from January of year 0, days from its first day.
-/

namespace Sukko.Calendar

def leap (year : Nat) : Bool := year % 4 == 0 && (year % 100 != 0 || year % 400 == 0)

def length (month : Nat) : Nat :=
  match month % 12 with
  | 1 => if leap (month / 12) then 29 else 28
  | 3 | 5 | 8 | 10 => 30
  | _ => 31

/-- The first day of a month. -/
def first : Nat → Nat
  | 0 => 0
  | month + 1 => first month + length month

/-- A day from year 1 on, with its month. -/
structure Date where
  day : Nat
  month : Nat
  mem : first month ≤ day ∧ day < first (month + 1)
  year : 12 ≤ month

/-- The day of the month, from 0. -/
def Date.ofMonth (d : Date) : Nat := d.day - first d.month

/-- The month of the same day of another month: a day past its end falls into the next one. -/
def Date.normalized (d : Date) (month : Nat) : Nat := if d.ofMonth < length month then month else month + 1

theorem length_bounds (month : Nat) : 28 ≤ length month ∧ length month ≤ 31 := by
  unfold length
  split <;> [split; skip; skip; skip; skip; skip] <;> omega

theorem first_strictMono : StrictMono first := by
  refine strictMono_nat_of_lt_succ fun month => ?_
  have := length_bounds month
  simp only [first]
  omega

theorem month_le {j k day : Nat} (h : first j ≤ day) (h' : day < first (k + 1)) : j ≤ k :=
  Nat.lt_succ_iff.mp (first_strictMono.lt_iff_lt.mp (h.trans_lt h'))

end Sukko.Calendar
