import Mathlib.Data.Finset.Basic
import Sukko.Lib.Calendar
/-
# The partitions of the analytics tables

`PartitionManager.RunMaintenance` (shared/analytics/partition.go): minute and hour tables have daily partitions, day
tables monthly ones, named by day or month; other names are skipped.
-/

namespace Sukko.Analytics.Partitions
open Calendar

inductive Level
  | minute
  | hour
  | day
deriving DecidableEq

inductive Table
  | connections
  | messages
  | push

def retentionMinutePartitions := 2
def retentionHourPartitions := 30
def retentionDayPartitions := 12

abbrev Db := Level → Table → Finset Nat

def firstDay : Level → Nat → Nat
  | .day, month => first month
  | _, day => day

def cutoff (now : Date) : Level → Nat
  | .minute => now.day - retentionMinutePartitions
  | .hour => now.day - retentionHourPartitions
  | .day => first (now.month - retentionDayPartitions) + now.ofMonth

def created (now : Date) : Level → Finset Nat
  | .day => {now.normalized (now.month + 1)}
  | _ => {now.day + 1, now.day + 2}

def runMaintenance (db : Db) (now : Date) : Db := fun level table =>
  (created now level ∪ db level table).filter fun k => cutoff now level ≤ firstDay level k

/-- Rows of the day go to the partition. -/
def Covers (level : Level) (k row : Nat) : Prop := firstDay level k ≤ row ∧ row < firstDay level (k + 1)

section
variable {db : Db} {now start date : Date} {runs : List Date} {level : Level} {table : Table} {k : Nat}

theorem mem_runMaintenance : k ∈ runMaintenance db now level table ↔
    (k ∈ created now level ∨ k ∈ db level table) ∧ cutoff now level ≤ firstDay level k := by
  simp [runMaintenance]

theorem not_mem_runMaintenance (hk : k ∈ db level table) :
    k ∉ runMaintenance db now level table ↔ firstDay level k < cutoff now level := by
  simp [mem_runMaintenance, hk]

theorem firstDay_lt_succ (level : Level) (k : Nat) : firstDay level k < firstDay level (k + 1) := by
  cases level with
  | day => exact first_strictMono (Nat.lt_succ_self k)
  | _ => exact Nat.lt_succ_self k

/-- **What a run drops.** A dropped daily partition holds only rows older than the cutoff, and whatever is left can hold a row
that is not. The monthly partitions that are dropped hold only older rows just if the cutoff is not inside the month of one of
them. -/
theorem retention_exact (db : Db) (now : Date) (table : Table) :
    (∀ level ≠ .day, ∀ k ∈ db level table, k ∉ runMaintenance db now level table →
      ∀ row, Covers level k row → row < cutoff now level) ∧
    ((∀ k ∈ db .day table, k ∉ runMaintenance db now .day table → ∀ row, Covers .day k row → row < cutoff now .day) ↔
      ∀ k ∈ db .day table, first k < cutoff now .day → first (k + 1) ≤ cutoff now .day) ∧
    ∀ level, ∀ k ∈ runMaintenance db now level table, ∃ row, Covers level k row ∧ cutoff now level ≤ row := by
  refine ⟨fun level hl k hk hd row hr => ?_, forall₂_congr fun k hk => ?_, fun level k hk => ?_⟩
  · rw [not_mem_runMaintenance hk] at hd
    refine Nat.lt_of_lt_of_le hr.2 ?_
    cases level with
    | day => exact absurd rfl hl
    | _ => exact hd
  · rw [not_mem_runMaintenance hk]
    refine imp_congr_right fun _ => ⟨fun h => ?_, fun h row hr => Nat.lt_of_lt_of_le hr.2 h⟩
    -- the last day of the month
    have hlt := firstDay_lt_succ .day k
    have hlast := h (first (k + 1) - 1) ⟨Nat.le_sub_one_of_lt hlt, Nat.sub_one_lt_of_lt hlt⟩
    omega
  · exact ⟨_, ⟨Nat.le_refl _, firstDay_lt_succ level k⟩, (mem_runMaintenance.mp hk).2⟩

/-- 15 March of year 1. -/
def ides : Date := ⟨first 14 + 14, 14, by decide, by decide⟩

/-- **Bug**: in the middle of March the partition of last year's March is dropped, with the rows of its second half. -/
theorem march_dropped_whole : 2 ∉ runMaintenance (fun _ _ => {2}) ides .day .push ∧ Covers .day 2 (first 2 + 20) ∧
    cutoff ides .day ≤ first 2 + 20 :=
  ⟨by decide, ⟨by decide, by decide⟩, by decide⟩

/-- A partition that no run drops stays, and so does one that a run creates. -/
theorem mem_runs (hk : ∀ now ∈ runs, cutoff now level ≤ firstDay level k)
    (h : k ∈ db level table ∨ ∃ now ∈ runs, k ∈ created now level) : k ∈ runs.foldl runMaintenance db level table := by
  induction runs generalizing db with
  | nil => simpa using h
  | cons now runs ih =>
    refine ih (fun now h => hk now (List.mem_cons_of_mem _ h)) ?_
    rw [mem_runMaintenance, and_iff_left (hk now List.mem_cons_self)]
    simpa [or_assoc, or_comm, or_left_comm] using h

theorem cutoff_le_first (h : now.month ≤ k) : cutoff now .day ≤ first k := by
  have h₁ := now.mem
  have h₂ := now.year
  have h₃ := length_bounds now.month
  have h₄ := length_bounds (now.month - 12)
  have h₅ := length_bounds (now.month - 12 + 1)
  have h₆ : first (now.month - 12 + 1 + 1) ≤ first k := first_strictMono.monotone (by omega)
  simp only [cutoff, retentionDayPartitions, Date.ofMonth, first] at h₁ h₆ ⊢
  omega

/-- A run on a day that the next month has too creates that month. -/
theorem next_created (h : first k ≤ now.day) (h' : now.day < first (k + 1)) (hn : now.day - first k < length (k + 1)) :
    k + 1 ∈ created now .day := by
  obtain rfl : k = now.month := Nat.le_antisymm (month_le h now.mem.2) (month_le now.mem.1 h')
  exact Finset.mem_singleton.mpr (if_pos hn).symm

/-- **Every date finds its partitions**, if there was a run on every day from the start to the day before; for the months, the
start must not be a day its next month lacks, or that month must be there already. -/
theorem partitions_exist (hd : ∀ level ≠ .day, start.day ∈ db level table) (hm : start.month ∈ db .day table)
    (hs : start.ofMonth < length (start.month + 1) ∨ start.month + 1 ∈ db .day table) (hle : start.day ≤ date.day)
    (hb : ∀ now ∈ runs, now.day ≤ date.day) (hr : ∀ day, start.day ≤ day → day < date.day → ∃ now ∈ runs, now.day = day) :
    (∀ level ≠ .day, date.day ∈ runs.foldl runMaintenance db level table) ∧
      date.month ∈ runs.foldl runMaintenance db .day table := by
  have hstart := start.mem
  have hdate := date.mem
  refine ⟨fun level hne => mem_runs (fun now hn => ?_) ?_, mem_runs (fun now hn => ?_) ?_⟩
  · have := hb now hn
    cases level with simp only [cutoff, firstDay]
    | day => exact absurd rfl hne
    | _ => omega
  · by_cases he : start.day = date.day
    · exact .inl (he ▸ hd level hne)
    · obtain ⟨now, hn, hday⟩ := hr (date.day - 1) (by omega) (by omega)
      obtain he : date.day = now.day + 1 := by omega
      refine .inr ⟨now, hn, ?_⟩
      cases level <;> simp [created, he] at hne ⊢
  · exact cutoff_le_first (month_le now.mem.1 ((hb now hn).trans_lt hdate.2))
  · -- created in the month before, from the start if that is its month and else on its first day
    have hl := month_le hstart.1 (hle.trans_lt hdate.2)
    by_cases he : date.month = start.month
    · exact .inl (he ▸ hm)
    obtain ⟨k, hk⟩ : ∃ k, date.month = k + 1 := ⟨date.month - 1, by omega⟩
    rw [hk] at hdate ⊢
    by_cases hj : k = start.month
    · subst hj
      refine hs.symm.imp_right fun hs => ?_
      obtain ⟨now, hn, hday⟩ := hr start.day (Nat.le_refl _) (by omega)
      exact ⟨now, hn, next_created (by omega) (by omega) (by rw [hday]; exact hs)⟩
    · have h₁ : first (start.month + 1) ≤ first k := first_strictMono.monotone (by omega)
      have h₂ : first k < first (k + 1) := first_strictMono (Nat.lt_succ_self k)
      have h₃ := length_bounds (k + 1)
      obtain ⟨now, hn, hday⟩ := hr (first k) (by omega) (by omega)
      exact .inr ⟨now, hn, next_created (by omega) (by omega) (by omega)⟩

theorem of_mem_runs (h : k ∈ runs.foldl runMaintenance db level table) :
    k ∈ db level table ∨ ∃ now ∈ runs, k ∈ created now level := by
  induction runs generalizing db with
  | nil => exact .inl h
  | cons now runs ih =>
    rcases ih h with hk | ⟨now', hn, hk⟩
    · rcases (mem_runMaintenance.1 hk).1 with hk | hk
      · exact .inr ⟨now, List.mem_cons_self, hk⟩
      · exact .inl hk
    · exact .inr ⟨now', List.mem_cons_of_mem _ hn, hk⟩

/-- **The start condition is needed**: after a start on a day its next month lacks, no run of the month creates that month. -/
theorem next_month_missing (hs : length (start.month + 1) ≤ start.ofMonth) (hm : start.month + 1 ∉ db .day table)
    (hr : ∀ now ∈ runs, start.day ≤ now.day ∧ now.day < first (start.month + 1)) :
    start.month + 1 ∉ runs.foldl runMaintenance db .day table := by
  intro h
  rcases of_mem_runs h with h | ⟨now, hn, h⟩
  · exact hm h
  obtain ⟨hle, hlt⟩ := hr now hn
  have hstart := start.mem
  have hnow := now.mem
  obtain he : now.month = start.month := Nat.le_antisymm (month_le hnow.1 hlt) (month_le hstart.1 (hle.trans_lt hnow.2))
  have hlate : ¬ now.ofMonth < length (now.month + 1) := by
    simp only [Date.ofMonth, he] at hs ⊢
    omega
  have hskip := Finset.mem_singleton.1 h
  rw [Date.normalized, if_neg hlate] at hskip
  omega

/-- 31 January of year 1. -/
def january : Date := ⟨first 12 + 30, 12, by decide, by decide⟩
def february : Date := ⟨first 13, 13, by decide, by decide⟩

/-- 28 January to 31 January. -/
def lastDays : List Date := [⟨first 12 + 27, 12, by decide, by decide⟩, ⟨first 12 + 28, 12, by decide, by decide⟩,
  ⟨first 12 + 29, 12, by decide, by decide⟩, january]

theorem partitions_exist_february :
    february.day ∈ lastDays.foldl runMaintenance (fun level _ => if level = .day then {12} else {first 12 + 27}) .hour .push ∧
    13 ∈ lastDays.foldl runMaintenance (fun level _ => if level = .day then {12} else {first 12 + 27}) .day .push := by
  have hall := @partitions_exist (fun level _ => if level = .day then {12} else {first 12 + 27})
    ⟨first 12 + 27, 12, by decide, by decide⟩ february lastDays .push (fun level h => ?_) (by decide) (.inl (by decide))
    (by decide) (by decide) fun day h h' => ?_
  · exact ⟨hall.1 .hour (by decide), hall.2⟩
  · rw [if_neg h]
    exact Finset.mem_singleton_self _
  · have hday : day ∈ lastDays.map Date.day := by
      have hlast : february.day = first 12 + 31 := by decide
      simp only [lastDays, january, List.map_cons, List.map_nil, List.mem_cons, List.not_mem_nil, or_false]
      simp only at h
      omega
    obtain ⟨now, hn, hd⟩ := List.mem_map.1 hday
    exact ⟨now, hn, hd⟩

/-- **Bug**: `AddDate` makes 3 March of 31 February, so a start on 31 January creates March, and February finds no partition. -/
theorem february_missing : 13 ∉ [january].foldl runMaintenance
    (fun level _ => if level = .day then {12} else {january.day}) .day .push := by
  decide
end
end Sukko.Analytics.Partitions
