import Sukko.Lib.GoString
/-
# A keyspace whose keys expire

A store of hashes and sets with the commands of Valkey. `HSET` and `SADD` make a key without an expiry, `EXPIRE` gives one to a
key that exists. A client relies on `HashUntil` and `MemberUntil`.
-/

namespace Sukko
open List Function

/-! ## Association lists -/

abbrev Assoc (κ ν : Type) := List (κ × ν)

namespace Assoc
variable {κ ν : Type} [DecidableEq κ]

def get (m : Assoc κ ν) (k : κ) : Option ν := (m.find? (·.1 = k)).map (·.2)
def erase (m : Assoc κ ν) (k : κ) : Assoc κ ν := m.filter (·.1 ≠ k)
def set (m : Assoc κ ν) (k : κ) (x : ν) : Assoc κ ν := erase m k ++ [(k, x)]
def setAll (m new : Assoc κ ν) : Assoc κ ν := new.foldl (fun m e => set m e.1 e.2) m

@[simp] theorem get_nil (k : κ) : get ([] : Assoc κ ν) k = none := rfl

variable {m : Assoc κ ν}

theorem mem_of_get {k : κ} {x : ν} (h : get m k = some x) : (k, x) ∈ m := by
  obtain ⟨⟨k', x'⟩, hf, rfl⟩ := Option.map_eq_some_iff.1 h
  have hk : k' = k := by simpa using List.find?_some hf
  exact hk ▸ mem_of_find?_eq_some hf

theorem get_ne_none_iff {k : κ} : get m k ≠ none ↔ ∃ x, (k, x) ∈ m := by
  simp [get]

theorem get_erase (m : Assoc κ ν) (k k' : κ) : get (erase m k) k' = if k' = k then none else get m k' := by
  unfold get erase
  rw [List.find?_filter]
  split
  · subst k'
    simp
  · rename_i hne
    congr 2
    funext e
    by_cases he : e.1 = k'
    · simp [he, hne]
    · simp [he]

theorem get_set (m : Assoc κ ν) (k k' : κ) (x : ν) : get (set m k x) k' = if k' = k then some x else get m k' := by
  have ha : get (set m k x) k' = (get (erase m k) k').or (get [(k, x)] k') := by
    unfold get set
    rw [List.find?_append]
    cases List.find? (fun e => decide (e.1 = k')) (erase m k) <;> rfl
  rw [ha, get_erase]
  by_cases hk : k' = k
  · subst k'
    simp [get]
  · have hk' : k ≠ k' := fun h => hk h.symm
    simp [get, hk, hk']

theorem setAll_ne_nil {new : Assoc κ ν} (h : new ≠ []) : setAll m new ≠ [] := by
  obtain ⟨init, last, rfl⟩ := eq_nil_or_concat new |>.resolve_left h
  simp [setAll, set]

end Assoc

namespace Keyspace
variable {α : Type} [DecidableEq α]

/-! ## Keys and commands -/

inductive Value (α : Type)
  | hash (fields : Assoc α α)
  | set (members : List α)
deriving DecidableEq

structure Entry (α : Type) where
  value : Value α
  expires : Option Time
deriving DecidableEq

abbrev Db (α : Type) := α → Option (Entry α)

def Entry.alive (now : Time) (e : Entry α) : Bool :=
  match e.expires with
  | none => true
  | some t => now ≤ t

def Db.get (db : Db α) (now : Time) (key : α) : Option (Entry α) := (db key).filter (·.alive now)

inductive Cmd (α : Type)
  | hset (key : α) (fields : Assoc α α)
  | expire (key : α) (seconds : Int)
  | sadd (key member : α)
  | srem (key : α) (members : List α)
  | del (key : α)
deriving DecidableEq

def Cmd.key : Cmd α → α
  | .hset key _ | .expire key _ | .sadd key _ | .srem key _ | .del key => key

/-- What a command leaves under its key. A command on a key of the other kind is an error and changes nothing; a set
without members is no key. -/
def Cmd.apply (now : Time) : Cmd α → Option (Entry α) → Option (Entry α)
  | .hset _ fields, none => some ⟨.hash (Assoc.setAll [] fields), none⟩
  | .hset _ fields, some ⟨.hash old, expires⟩ => some ⟨.hash (Assoc.setAll old fields), expires⟩
  | .hset _ _, some e => some e
  | .expire _ _, none => none
  | .expire _ seconds, some e => if seconds ≤ 0 then none else some { e with expires := some (now + seconds * second) }
  | .sadd _ member, none => some ⟨.set [member], none⟩
  | .sadd _ member, some ⟨.set members, expires⟩ =>
    some ⟨.set (if member ∈ members then members else members ++ [member]), expires⟩
  | .sadd _ _, some e => some e
  | .srem _ _, none => none
  | .srem _ gone, some ⟨.set members, expires⟩ =>
    let left := members.filter (· ∉ gone)
    if left = [] then none else some ⟨.set left, expires⟩
  | .srem _ _, some e => some e
  | .del _, _ => none

def Db.exec (now : Time) (db : Db α) (cmd : Cmd α) : Db α :=
  Function.update db cmd.key (cmd.apply now (db.get now cmd.key))

def Db.hgetall (db : Db α) (now : Time) (key : α) : Assoc α α :=
  match db.get now key with
  | some ⟨.hash fields, _⟩ => fields
  | _ => []

def Db.smembers (db : Db α) (now : Time) (key : α) : List α :=
  match db.get now key with
  | some ⟨.set members, _⟩ => members
  | _ => []

/-! ## What a command leaves alone, and what it does to its key -/

@[simp] theorem exec_self (now : Time) (db : Db α) (cmd : Cmd α) :
    db.exec now cmd cmd.key = cmd.apply now (db.get now cmd.key) := Function.update_self ..

variable {cmd : Cmd α} {db : Db α} {e : Entry α} {key member : α} {now t t' : Time} {seconds : Int}

theorem exec_of_ne (h : cmd.key ≠ key) : db.exec now cmd key = db key := update_of_ne (fun heq => h heq.symm) ..

omit [DecidableEq α] in
theorem get_eq_some : db.get now key = some e ↔ db key = some e ∧ ∀ t ∈ e.expires, now ≤ t := by
  rw [Db.get, Option.filter_eq_some_iff]
  refine and_congr_right fun _ => ?_
  unfold Entry.alive
  cases e.expires <;> simp

theorem exec_eq (now : Time) (db : Db α) (cmd : Cmd α) (key : α) :
    db.exec now cmd key = if cmd.key = key then cmd.apply now (db.get now key) else db key := by
  split
  · rename_i h
    subst h
    exact exec_self now db cmd
  · rename_i h
    exact exec_of_ne h

theorem exec_expire (hg : db.get now key = some e) (hp : 0 < seconds) :
    db.exec now (.expire key seconds) key = some { e with expires := some (now + seconds * second) } := by
  have he : db.exec now (.expire key seconds) key = Cmd.apply now (.expire key seconds) (db.get now key) := exec_self ..
  rw [he, hg]
  exact if_neg (Int.not_le.2 hp)

/-! ## Keys that last -/

def HashUntil (db : Db α) (key : α) (t : Time) : Prop :=
  ∃ fields expires, db key = some ⟨.hash fields, expires⟩ ∧ fields ≠ [] ∧ ∀ d ∈ expires, t ≤ d

def MemberUntil (db : Db α) (key member : α) (t : Time) : Prop :=
  ∃ members expires, db key = some ⟨.set members, expires⟩ ∧ member ∈ members ∧ ∀ d ∈ expires, t ≤ d

def IsHash (db : Db α) (key : α) : Prop := ∀ members expires, db key ≠ some ⟨.set members, expires⟩
def IsSet (db : Db α) (key : α) : Prop := ∀ fields expires, db key ≠ some ⟨.hash fields, expires⟩

def Cmd.Renews (now t : Time) (key : α) (cmd : Cmd α) : Prop :=
  ∃ seconds, cmd = .expire key seconds ∧ 0 < seconds ∧ t ≤ now + seconds * second

section
omit [DecidableEq α]

theorem HashUntil.mono (h : HashUntil db key t) (ht : t' ≤ t) : HashUntil db key t' := by
  obtain ⟨fields, expires, hdb, hne, he⟩ := h
  exact ⟨fields, expires, hdb, hne, fun d hd => Int.le_trans ht (he d hd)⟩

theorem MemberUntil.mono (h : MemberUntil db key member t) (ht : t' ≤ t) : MemberUntil db key member t' := by
  obtain ⟨members, expires, hdb, hm, he⟩ := h
  exact ⟨members, expires, hdb, hm, fun d hd => Int.le_trans ht (he d hd)⟩

theorem HashUntil.get (h : HashUntil db key t) (hn : now ≤ t) :
    ∃ fields expires, db.get now key = some ⟨.hash fields, expires⟩ ∧ fields ≠ [] ∧ ∀ d ∈ expires, t ≤ d := by
  obtain ⟨fields, expires, hdb, hne, he⟩ := h
  exact ⟨fields, expires, get_eq_some.2 ⟨hdb, fun d hd => Int.le_trans hn (he d hd)⟩, hne, he⟩

theorem MemberUntil.get (h : MemberUntil db key member t) (hn : now ≤ t) :
    ∃ members expires, db.get now key = some ⟨.set members, expires⟩ ∧ member ∈ members ∧ ∀ d ∈ expires, t ≤ d := by
  obtain ⟨members, expires, hdb, hm, he⟩ := h
  exact ⟨members, expires, get_eq_some.2 ⟨hdb, fun d hd => Int.le_trans hn (he d hd)⟩, hm, he⟩

theorem HashUntil.hgetall_ne_nil (h : HashUntil db key t) (hn : now ≤ t) : db.hgetall now key ≠ [] := by
  obtain ⟨fields, expires, hg, hne, -⟩ := h.get hn
  simpa [Db.hgetall, hg] using hne

theorem MemberUntil.mem_smembers (h : MemberUntil db key member t) (hn : now ≤ t) : member ∈ db.smembers now key := by
  obtain ⟨members, expires, hg, hm, -⟩ := h.get hn
  simpa [Db.smembers, hg] using hm
end

theorem HashUntil.exec (h : HashUntil db key t) (hn : now ≤ t)
    (hc : cmd.key = key → (∃ fields, cmd = .hset key fields) ∨ cmd.Renews now t key) : HashUntil (db.exec now cmd) key t := by
  by_cases hk : cmd.key = key
  · obtain ⟨old, expires, hg, hne, he⟩ := h.get hn
    rcases hc hk with ⟨fields, rfl⟩ | ⟨seconds, rfl, hp, ht⟩
    · refine ⟨Assoc.setAll old fields, expires, ?_, ?_, he⟩
      · rw [exec_eq, if_pos hk, hg]
        rfl
      · cases fields with
        | nil => exact hne
        | cons f fs => exact Assoc.setAll_ne_nil (cons_ne_nil f fs)
    · refine ⟨old, some (now + seconds * second), exec_expire hg hp, hne, fun d hd => ?_⟩
      cases hd
      exact ht
  · obtain ⟨old, expires, hdb, hne, he⟩ := h
    exact ⟨old, expires, (exec_of_ne hk).trans hdb, hne, he⟩

theorem MemberUntil.exec (h : MemberUntil db key member t) (hn : now ≤ t)
    (hc : cmd.key = key → (∃ m, cmd = .sadd key m) ∨ (∃ ms, cmd = .srem key ms ∧ member ∉ ms) ∨ cmd.Renews now t key) :
    MemberUntil (db.exec now cmd) key member t := by
  by_cases hk : cmd.key = key
  · obtain ⟨members, expires, hg, hm, hex⟩ := h.get hn
    have he : db.exec now cmd key = cmd.apply now (some ⟨.set members, expires⟩) := by rw [exec_eq, if_pos hk, hg]
    rcases hc hk with ⟨m, rfl⟩ | ⟨ms, rfl, hms⟩ | ⟨seconds, rfl, hp, ht⟩
    · refine ⟨_, expires, he, ?_, hex⟩
      split
      · exact hm
      · exact mem_append_left _ hm
    · have hl : member ∈ members.filter (· ∉ ms) := by simp [hm, hms]
      refine ⟨members.filter (· ∉ ms), expires, ?_, hl, hex⟩
      rw [he]
      simp only [Cmd.apply, if_neg (ne_nil_of_mem hl)]
    · refine ⟨members, some (now + seconds * second), exec_expire hg hp, hm, fun d hd => ?_⟩
      cases hd
      exact ht
  · obtain ⟨members, expires, hdb, hm, hex⟩ := h
    exact ⟨members, expires, (exec_of_ne hk).trans hdb, hm, hex⟩

theorem hashUntil_hset {fields : Assoc α α} (hk : IsHash db key) (hne : fields ≠ []) :
    HashUntil (db.exec now (.hset key fields)) key now := by
  have he : db.exec now (.hset key fields) key = Cmd.apply now (.hset key fields) (db.get now key) := exec_self ..
  cases hg : db.get now key with
  | none =>
    rw [hg] at he
    exact ⟨_, none, he, Assoc.setAll_ne_nil hne, by simp⟩
  | some e =>
    obtain ⟨value, expires⟩ := e
    obtain ⟨hdb, hex⟩ := get_eq_some.1 hg
    cases value with
    | set members => exact absurd hdb (hk members expires)
    | hash old =>
      rw [hg] at he
      exact ⟨_, expires, he, Assoc.setAll_ne_nil hne, hex⟩

theorem memberUntil_sadd (hk : IsSet db key) : MemberUntil (db.exec now (.sadd key member)) key member now := by
  have he : db.exec now (.sadd key member) key = Cmd.apply now (.sadd key member) (db.get now key) := exec_self ..
  cases hg : db.get now key with
  | none =>
    rw [hg] at he
    exact ⟨[member], none, he, mem_singleton_self member, by simp⟩
  | some e =>
    obtain ⟨value, expires⟩ := e
    obtain ⟨hdb, hex⟩ := get_eq_some.1 hg
    cases value with
    | hash old => exact absurd hdb (hk old expires)
    | set members =>
      rw [hg] at he
      refine ⟨_, expires, he, ?_, hex⟩
      split
      · assumption
      · simp

theorem HashUntil.expire (h : HashUntil db key now) (hp : 0 < seconds) :
    HashUntil (db.exec now (.expire key seconds)) key (now + seconds * second) := by
  obtain ⟨fields, expires, hg, hne, -⟩ := h.get (Int.le_refl now)
  refine ⟨fields, some (now + seconds * second), exec_expire hg hp, hne, fun d hd => ?_⟩
  cases hd
  exact Int.le_refl _

theorem MemberUntil.expire (h : MemberUntil db key member now) (hp : 0 < seconds) :
    MemberUntil (db.exec now (.expire key seconds)) key member (now + seconds * second) := by
  obtain ⟨members, expires, hg, hm, -⟩ := h.get (Int.le_refl now)
  refine ⟨members, some (now + seconds * second), exec_expire hg hp, hm, fun d hd => ?_⟩
  cases hd
  exact Int.le_refl _

section
omit [DecidableEq α]

theorem HashUntil.of_alive (h : HashUntil db key now) (ha : ∀ e ∈ db.get now key, e.alive t = true) : HashUntil db key t := by
  obtain ⟨fields, expires, hg, hne, -⟩ := h.get (Int.le_refl now)
  refine ⟨fields, expires, (get_eq_some.1 hg).1, hne, fun d hd => ?_⟩
  cases hd
  simpa [Entry.alive] using ha _ hg

theorem MemberUntil.of_alive (h : MemberUntil db key member now) (ha : ∀ e ∈ db.get now key, e.alive t = true) :
    MemberUntil db key member t := by
  obtain ⟨members, expires, hg, hm, -⟩ := h.get (Int.le_refl now)
  refine ⟨members, expires, (get_eq_some.1 hg).1, hm, fun d hd => ?_⟩
  cases hd
  simpa [Entry.alive] using ha _ hg
end

/-! ## Keys that go -/

def Lasting (db : Db α) (key : α) : Prop := ∃ e, db key = some e ∧ e.expires = none

instance (db : Db α) (key : α) : Decidable (Lasting db key) :=
  match h : db key with
  | some e => decidable_of_iff (e.expires = none) (by simp [Lasting, h])
  | none => isFalse (by simp [Lasting, h])

def Bounded (db : Db α) (key : α) (t : Time) : Prop := ∀ e, db key = some e → ∀ d ∈ e.expires, d ≤ t
def ExpiresBy (db : Db α) (key : α) (t : Time) : Prop := ∀ e, db key = some e → ∃ d, e.expires = some d ∧ d ≤ t

section
omit [DecidableEq α]

theorem expiresBy_of_bounded (hl : ¬Lasting db key) (hb : Bounded db key t) : ExpiresBy db key t := by
  intro e he
  cases hex : e.expires with
  | none => exact absurd ⟨e, he, hex⟩ hl
  | some d => exact ⟨d, rfl, hb e he d hex⟩

theorem ExpiresBy.get_eq_none (h : ExpiresBy db key t) (hn : t < now) : db.get now key = none := by
  cases hg : db.get now key with
  | none => rfl
  | some e =>
    obtain ⟨hdb, he⟩ := get_eq_some.1 hg
    obtain ⟨d, hd, hle⟩ := h e hdb
    exact absurd (he d hd) (Int.not_le.2 (Int.lt_of_le_of_lt hle hn))
end

theorem exec_expires (h : db.exec now cmd key = some e) :
    (∃ old, db key = some old ∧ e.expires = old.expires ∧ cmd ≠ .del key ∧ ∀ seconds, cmd ≠ .expire key seconds) ∨
    (e.expires = none ∧ ((∃ fields, cmd = .hset key fields) ∨ ∃ member, cmd = .sadd key member)) ∨
    ∃ seconds, cmd = .expire key seconds ∧ e.expires = some (now + seconds * second) := by
  rw [exec_eq] at h
  split at h
  · rename_i hk
    subst hk
    cases hg : db.get now cmd.key with
    | none =>
      rw [hg] at h
      cases cmd <;> cases h
      · exact .inr (.inl ⟨rfl, .inl ⟨_, rfl⟩⟩)
      · exact .inr (.inl ⟨rfl, .inr ⟨_, rfl⟩⟩)
    | some old =>
      have hdb := (get_eq_some.1 hg).1
      rw [hg] at h
      obtain ⟨value, expires⟩ := old
      cases cmd with
      | hset key fields | sadd key member =>
        refine .inl ⟨_, hdb, ?_, by simp, by simp⟩
        cases value <;> cases h <;> rfl
      | srem key gone =>
        refine .inl ⟨_, hdb, ?_, by simp, by simp⟩
        cases value with
        | hash fields =>
          cases h
          rfl
        | set members =>
          simp only [Cmd.apply] at h
          split at h <;> cases h
          rfl
      | expire key seconds =>
        simp only [Cmd.apply] at h
        split at h <;> cases h
        exact .inr (.inr ⟨seconds, rfl, rfl⟩)
      | del key => cases h
  · rename_i hk
    refine .inl ⟨e, h, rfl, ?_, ?_⟩
    · rintro rfl
      exact hk rfl
    · rintro seconds rfl
      exact hk rfl

theorem Lasting.of_exec (h : Lasting (db.exec now cmd) key) :
    (Lasting db key ∧ cmd ≠ .del key ∧ ∀ seconds, cmd ≠ .expire key seconds) ∨
      (∃ fields, cmd = .hset key fields) ∨ ∃ member, cmd = .sadd key member := by
  obtain ⟨e, he, hep⟩ := h
  rcases exec_expires he with ⟨old, hdb, hold, hd, hex⟩ | ⟨-, hc⟩ | ⟨seconds, -, hs⟩
  · exact .inl ⟨⟨old, hdb, hold ▸ hep⟩, hd, hex⟩
  · exact .inr hc
  · rw [hep] at hs
    cases hs

theorem Bounded.exec (h : Bounded db key t) (hcm : ∀ seconds, cmd = .expire key seconds → now + seconds * second ≤ t) :
    Bounded (db.exec now cmd) key t := by
  intro e he d hd
  rcases exec_expires he with ⟨old, hdb, hold, -⟩ | ⟨hn, -⟩ | ⟨seconds, hc, hs⟩
  · exact h old hdb d (hold ▸ hd)
  · rw [hn] at hd
    cases hd
  · rw [hs] at hd
    cases hd
    exact hcm seconds hc

omit [DecidableEq α] in
theorem Bounded.mono (h : Bounded db key t) (ht : t ≤ t') : Bounded db key t' := fun e he d hd => Int.le_trans (h e he d hd) ht

theorem IsHash.exec (h : IsHash db key) (hc : ∀ member, cmd ≠ .sadd key member) : IsHash (db.exec now cmd) key := by
  intro members expires he
  rw [exec_eq] at he
  split at he
  · rename_i hk
    subst hk
    cases hg : db.get now cmd.key with
    | none =>
      rw [hg] at he
      cases cmd with
      | sadd key member => exact hc member rfl
      | _ => cases he
    | some old =>
      have hdb := (get_eq_some.1 hg).1
      rw [hg] at he
      obtain ⟨value, exp⟩ := old
      cases value with
      | set members' => exact h members' exp hdb
      | hash fields =>
        cases cmd with
        | expire key seconds =>
          simp only [Cmd.apply] at he
          split at he <;> cases he
        | _ => cases he
  · exact h members expires he

theorem IsSet.exec (h : IsSet db key) (hc : ∀ fields, cmd ≠ .hset key fields) : IsSet (db.exec now cmd) key := by
  intro fields expires he
  rw [exec_eq] at he
  split at he
  · rename_i hk
    subst hk
    cases hg : db.get now cmd.key with
    | none =>
      rw [hg] at he
      cases cmd with
      | hset key fields => exact hc fields rfl
      | _ => cases he
    | some old =>
      have hdb := (get_eq_some.1 hg).1
      rw [hg] at he
      obtain ⟨value, exp⟩ := old
      cases value with
      | hash fields' => exact h fields' exp hdb
      | set members =>
        cases cmd with
        | expire key seconds | srem key gone =>
          simp only [Cmd.apply] at he
          split at he <;> cases he
        | _ => cases he
  · exact h fields expires he

/-! ## Members that are nowhere -/

def Outside (db : Db α) (member : α) : Prop := ∀ key members expires, db key = some ⟨.set members, expires⟩ → member ∉ members

omit [DecidableEq α] in
theorem Outside.not_mem_smembers (h : Outside db member) (now : Time) (key : α) : member ∉ db.smembers now key := by
  unfold Db.smembers
  split
  · rename_i members expires hg
    exact h key members expires (get_eq_some.1 hg).1
  · exact not_mem_nil

theorem Outside.exec (h : Outside db member) (hc : ∀ key, cmd ≠ .sadd key member) : Outside (db.exec now cmd) member := by
  intro key members expires he
  rw [exec_eq] at he
  split at he
  · rename_i hk
    subst hk
    cases hg : db.get now cmd.key with
    | none =>
      rw [hg] at he
      cases cmd <;> cases he
      intro hm
      cases mem_singleton.1 hm
      exact hc _ rfl
    | some old =>
      obtain ⟨value, exp⟩ := old
      have hdb := (get_eq_some.1 hg).1
      rw [hg] at he
      cases value with
      | hash fields =>
        cases cmd with
        | expire key seconds =>
          simp only [Cmd.apply] at he
          split at he <;> cases he
        | _ => cases he
      | set old =>
        have hold : member ∉ old := h _ _ _ hdb
        cases cmd with simp only [Cmd.apply] at he
        | hset key fields =>
          cases he
          exact hold
        | expire key seconds =>
          split at he <;> cases he
          exact hold
        | sadd key added =>
          cases he
          split
          · exact hold
          · rw [mem_append, mem_singleton, not_or]
            exact ⟨hold, fun heq => hc key (by rw [heq])⟩
        | srem key gone =>
          split at he <;> cases he
          exact fun hm => hold (mem_of_mem_filter hm)
        | del key => cases he
  · exact h key members expires he

end Keyspace
end Sukko
