import Sukko.Lib.Steps
import Sukko.Shared.License
/-
# Reloading the license

A call checks the key, gives it to the manager, and then writes the anchor, the row and the key of the stream one after the
other. Only the manager takes a lock.

**Database boundary**: the `INSERT … ON CONFLICT` is one atomic step, and it succeeds.
-/

namespace Sukko.LicenseReload
open License Steps List Function Option

/-! ## The handler -/

/-- Models `LicenseStateRepository.Upsert` (`provisioning/repository/license_state.go:35`). -/
structure LicenseRow where
  key : GoStr
  edition : GoStr
  org : GoStr
  expiresAt : Int
deriving DecidableEq

inductive Status
  | active
  | pendingRestart
  | unchanged
deriving DecidableEq

structure ReloadResponse where
  edition : GoStr
  org : GoStr
  expiresAt : Option Int
  status : Status
deriving DecidableEq

inductive Reply
  | ok (r : ReloadResponse)
  | error (status : Nat) (code message : GoStr)
deriving DecidableEq

/-- See `provisioning/api/license_handler.go:344`. -/
def handleReloadError : LicenseError → Reply
  | .replayDetected => .error 409 (str "REPLAY_DETECTED")
      (Utf8.encode "key iat is not newer than current — replay rejected".toList)
  | .expired => .error 400 (str "KEY_EXPIRED") (str "pushed key is already expired")
  | .invalidSignature => .error 400 (str "INVALID_SIGNATURE") (str "license signature verification failed")
  | .invalidFormat => .error 400 (str "INVALID_FORMAT") (str "license key format invalid")
  | .noLicense | .unchanged => .error 500 (str "INTERNAL") (str "license reload failed")

section
variable (v : GoStr → GoStr → Bool)

inductive Phase
  | idle
  | anchored (key : SignedKey v) (accepted : Int)
  | stale (key : SignedKey v)
  | foreign (key : SignedKey v)
  | passed (key : SignedKey v) (accepted : Int)
  | reloaded (key : SignedKey v) (applied : Bool)
  | stored (key : SignedKey v) (applied : Bool)
  | persisted (key : SignedKey v) (applied : Bool)
  | returned (reply : Reply)

variable (ι : Type)

structure State where
  mgr : Manager
  acceptedIat : Int
  row : Option LicenseRow
  currentKey : GoStr
  calls : ι → Phase v
  accepted : List (SignedKey v)

end

inductive Act (ι : Type)
  | request (i : ι) (text : GoStr) (now : Int)
  | readLive (i : ι)
  | readCurrentKey (i : ι)
  | previewReload (i : ι)
  | reload (i : ι) (now : Int)
  | storeIat (i : ι)
  | upsert (i : ι)
  | setCurrentKey (i : ι)

variable {v : GoStr → GoStr → Bool} {ι : Type} [DecidableEq ι]

def replayAnchor (accepted : Int) (current : Option Claims) : Int :=
  match current with
  | some c => if accepted < c.iat then c.iat else accepted
  | none => accepted

def State.unchanged (s : State v ι) : Reply :=
  .ok ⟨s.mgr.edition.normalize.name, (s.mgr.claims.map (·.org)).getD [], s.mgr.claims.map (·.exp), .unchanged⟩

def State.setCall (s : State v ι) (i : ι) (p : Phase v) : State v ι := { s with calls := Function.update s.calls i p }

def rowOf (key : SignedKey v) : LicenseRow :=
  ⟨key.text, key.claims.edition.normalize.name, key.claims.org, key.claims.exp⟩

def response (key : SignedKey v) (applied : Bool) : ReloadResponse :=
  ⟨key.claims.edition.normalize.name, key.claims.org, some key.claims.exp, if applied then .active else .pendingRestart⟩

def State.request (s : State v ι) (i : ι) (text : GoStr) (now : Int) : State v ι :=
  if text = [] then s.setCall i (.returned (.error 400 (str "MISSING_KEY") (str "key field is required")))
  else
    match parseAndVerify v now text with
    | .error e => s.setCall i (.returned (handleReloadError e))
    | .ok key => s.setCall i (.anchored key s.acceptedIat)

def State.readLive (s : State v ι) (i : ι) (key : SignedKey v) (accepted : Int) : State v ι :=
  let anchor := replayAnchor accepted s.mgr.claims
  if 0 < anchor ∧ key.claims.iat ≤ anchor then s.setCall i (.stale key) else s.setCall i (.passed key accepted)

def State.reload (s : State v ι) (i : ι) (now : Int) (key : SignedKey v) : State v ι :=
  match s.mgr.reloadNoDowngrade v now key.text with
  | .error .unchanged => s.setCall i (.returned s.unchanged)
  | .error e => s.setCall i (.returned (handleReloadError e))
  | .ok (mgr, applied) =>
    { s with mgr := mgr, accepted := key :: s.accepted, calls := Function.update s.calls i (.reloaded key applied) }

def step (s : State v ι) : Act ι → Option (State v ι)
  | .request i text now =>
    match s.calls i with
    | .idle | .returned _ => some (s.request i text now)
    | _ => none
  | .readLive i =>
    match s.calls i with
    | .anchored key accepted => some (s.readLive i key accepted)
    | _ => none
  | .readCurrentKey i =>
    match s.calls i with
    | .stale key => some (s.setCall i (if key.text = s.currentKey then .returned s.unchanged else .foreign key))
    | _ => none
  | .previewReload i =>
    match s.calls i with
    | .foreign key =>
      some (s.setCall i (.returned
        (if s.mgr.previewReload key.claims = .error .unchanged then s.unchanged else handleReloadError .replayDetected)))
    | _ => none
  | .reload i now =>
    match s.calls i with
    | .passed key _ => some (s.reload i now key)
    | _ => none
  | .storeIat i =>
    match s.calls i with
    | .reloaded key applied => some ({ s with acceptedIat := key.claims.iat }.setCall i (.stored key applied))
    | _ => none
  | .upsert i =>
    match s.calls i with
    | .stored key applied => some ({ s with row := some (rowOf key) }.setCall i (.persisted key applied))
    | _ => none
  | .setCurrentKey i =>
    match s.calls i with
    | .persisted key applied =>
      some ({ s with currentKey := key.text }.setCall i (.returned (.ok (response key applied))))
    | _ => none

def boot (v : GoStr → GoStr → Bool) (ι : Type) (now : Int) (envMgr : Option Manager) (envKey : GoStr)
    (row : Option LicenseRow) : Except LicenseError (State v ι) :=
  match resolveProvisioningLicense v now envMgr envKey ((row.map (·.key)).getD []) with
  | .error e => .error e
  | .ok (mgr, key) => .ok ⟨mgr, 0, row, key, fun _ => .idle, []⟩

/-! ## Calls that do not disturb each other -/

variable {accepted now : Int} {i : ι} {key : SignedKey v} {p : Phase v} {s s' t : State v ι}

def Phase.writing : Phase v → Bool
  | .reloaded _ _ | .stored _ _ | .persisted _ _ => true
  | _ => false

def Phase.quiet : Phase v → Bool
  | .idle | .returned _ => true
  | _ => false

def State.Quiet (s : State v ι) : Prop := ∀ i, (s.calls i).quiet = true

def Phase.anchoredAt (acceptedIat : Int) : Phase v → Bool
  | .passed _ accepted => accepted = acceptedIat
  | _ => true

def issuedOk (v : GoStr → GoStr → Bool) (text : GoStr) : Bool :=
  match verify v text with
  | .ok claims => 0 ≤ claims.iat
  | .error _ => true

/-- A key was not issued before 1970, and a call goes to the manager only while no other is writing and the anchor it read is
still the handler's. A lock around the calls gives it. -/
def Undisturbed (s : State v ι) : Act ι → Prop
  | .request _ text _ => issuedOk v text = true
  | .reload i _ => (∀ j, (s.calls j).writing = false) ∧ (s.calls i).anchoredAt s.acceptedIat = true
  | _ => True

instance [Fintype ι] (s : State v ι) (a : Act ι) : Decidable (Undisturbed s a) :=
  match a with
  | .request _ _ _ => inferInstanceAs (Decidable (_ = _))
  | .reload _ _ => inferInstanceAs (Decidable (_ ∧ _))
  | .readLive _ | .readCurrentKey _ | .previewReload _ | .storeIat _ | .upsert _ | .setCurrentKey _ => isTrue trivial

def State.persistedIat (s : State v ι) : Option Int :=
  s.row.bind fun row => (verify v row.key).toOption.map (·.iat)

/-- No key among the accepted ones was issued later. -/
def Newest (accepted : List (SignedKey v)) (key : SignedKey v) : Prop :=
  key ∈ accepted ∧ ∀ k ∈ accepted, k.claims.iat ≤ key.claims.iat

theorem Newest.cons {accepted : List (SignedKey v)} (h : ∀ k ∈ accepted, k.claims.iat ≤ key.claims.iat) :
    Newest (key :: accepted) key :=
  ⟨mem_cons_self, forall_mem_cons.2 ⟨Int.le_refl _, h⟩⟩

omit [DecidableEq ι] in
theorem persistedIat_rowOf (h : s.row = some (rowOf key)) : s.persistedIat = some key.claims.iat := by
  simp [State.persistedIat, h, rowOf, key.signed, Except.toOption]

def State.Settled (s : State v ι) : Prop :=
  (s.accepted = [] ∧ ∀ x ∈ s.persistedIat, x ≤ replayAnchor s.acceptedIat s.mgr.claims) ∨
    ∃ key, Newest s.accepted key ∧ s.acceptedIat = key.claims.iat ∧ s.row = some (rowOf key) ∧ s.currentKey = key.text

def State.CallOk (s : State v ι) : Phase v → Prop
  | .anchored key _ => 0 ≤ key.claims.iat
  | .passed key accepted => 0 ≤ key.claims.iat ∧ (accepted ≤ 0 ∨ accepted < key.claims.iat)
  | .reloaded key _ => Newest s.accepted key ∧ ∀ x ∈ s.persistedIat, x ≤ key.claims.iat
  | .stored key _ => Newest s.accepted key ∧ (∀ x ∈ s.persistedIat, x ≤ key.claims.iat) ∧ s.acceptedIat = key.claims.iat
  | .persisted key _ => Newest s.accepted key ∧ s.acceptedIat = key.claims.iat ∧ s.row = some (rowOf key)
  | .idle | .stale _ | .foreign _ | .returned _ => True

structure Inv (s : State v ι) : Prop where
  calls : ∀ i, s.CallOk (s.calls i)
  alone : ∀ i j, (s.calls i).writing = true → (s.calls j).writing = true → i = j
  settled : (∀ i, (s.calls i).writing = false) → s.Settled

omit [DecidableEq ι] in
theorem State.CallOk.of_not_writing (hp : p.writing = false) (h : s.CallOk p) : s'.CallOk p := by
  cases p with
  | reloaded key applied | stored key applied | persisted key applied => cases hp
  | _ => exact h

theorem Inv.setCall (h : Inv s) (hi : (s.calls i).writing = false) (hp : p.writing = false) (hok : s.CallOk p) :
    Inv (s.setCall i p) := by
  have hs : (s.setCall i p).calls i = p := by simp only [State.setCall, update_self]
  have ho : ∀ j ≠ i, (s.setCall i p).calls j = s.calls j := by
    intro j hne
    simp only [State.setCall, update_of_ne hne]
  have hw : ∀ j, ((s.setCall i p).calls j).writing = (s.calls j).writing := by
    intro j
    rcases eq_or_ne j i with rfl | hne
    · rw [hs, hp, hi]
    · rw [ho j hne]
  refine ⟨fun j => ?_, fun j k hj hk => h.alone j k (hw j ▸ hj) (hw k ▸ hk), fun hq => h.settled fun j => hw j ▸ hq j⟩
  rcases eq_or_ne j i with rfl | hne
  · rw [hs]
    exact hok
  · rw [ho j hne]
    exact h.calls j

omit [DecidableEq ι] in
theorem Inv.others (h : Inv s) (hi : (s.calls i).writing = true) {j : ι} (hne : j ≠ i) : (s.calls j).writing = false := by
  cases hj : (s.calls j).writing with
  | false => rfl
  | true => exact absurd (h.alone j i hj hi) hne

theorem Inv.write (h : Inv s) (ho : ∀ j ≠ i, (s.calls j).writing = false)
    (hc : s'.calls = Function.update s.calls i p) (hok : s'.CallOk p) (hset : p.writing = false → s'.Settled) : Inv s' := by
  have hs : s'.calls i = p := by rw [hc, update_self]
  have hot : ∀ j ≠ i, s'.calls j = s.calls j := fun j hne => by rw [hc, update_of_ne hne]
  have hon : ∀ j, (s'.calls j).writing = true → j = i := by
    intro j hj
    by_contra hne
    rw [hot j hne, ho j hne] at hj
    cases hj
  refine ⟨fun j => ?_, fun j k hj hk => (hon j hj).trans (hon k hk).symm, fun hq => hset (hs ▸ hq i)⟩
  rcases eq_or_ne j i with rfl | hne
  · rw [hs]
    exact hok
  · rw [hot j hne]
    exact (h.calls j).of_not_writing (ho j hne)

omit [DecidableEq ι] in
theorem Inv.accept (h : Inv s) (hi : s.calls i = .passed key accepted) (hq : ∀ j, (s.calls j).writing = false)
    (ha : accepted = s.acceptedIat) (hl : ∀ c ∈ s.mgr.claims, c.iat = 0 ∨ c.iat < key.claims.iat) :
    Newest (key :: s.accepted) key ∧ ∀ x ∈ s.persistedIat, x ≤ key.claims.iat := by
  have hok := h.calls i
  rw [hi] at hok
  obtain ⟨hp, hnw⟩ := hok
  have hle : s.acceptedIat ≤ key.claims.iat := by omega
  rcases h.settled hq with ⟨hn, hb⟩ | ⟨k, hk, hit, hr, -⟩
  · refine ⟨.cons (by simp [hn]), fun x hx => (hb x hx).trans ?_⟩
    unfold replayAnchor
    cases hc : s.mgr.claims with
    | none => exact hle
    | some c =>
      have := hl c hc
      dsimp only
      split
      · omega
      · exact hle
  · have hkl : k.claims.iat ≤ key.claims.iat := hit ▸ hle
    refine ⟨.cons fun k' hk' => (hk.2 k' hk').trans hkl, fun x hx => ?_⟩
    rw [persistedIat_rowOf hr] at hx
    cases hx
    exact hkl

/-! ## Each step -/

/-- The stored key is not replaced by an older one. -/
def PersistedLe (s t : State v ι) : Prop := ∀ x ∈ s.persistedIat, ∃ y ∈ t.persistedIat, x ≤ y

section
omit [DecidableEq ι]

theorem PersistedLe.of_row (h : t.row = s.row) : PersistedLe s t := by
  intro x hx
  exact ⟨x, by simpa only [State.persistedIat, h] using hx, Int.le_refl x⟩

theorem PersistedLe.trans {u : State v ι} (hst : PersistedLe s t) (htu : PersistedLe t u) : PersistedLe s u := by
  intro x hx
  obtain ⟨y, hy, hxy⟩ := hst x hx
  obtain ⟨z, hz, hyz⟩ := htu y hy
  exact ⟨z, hz, hxy.trans hyz⟩
end

theorem Inv.request (h : Inv s) {text : GoStr} (hi : (s.calls i).writing = false) (his : issuedOk v text = true) :
    Inv (s.request i text now) := by
  unfold State.request
  split
  · exact h.setCall hi rfl trivial
  split
  · exact h.setCall hi rfl trivial
  · rename_i key hk
    refine h.setCall hi rfl ?_
    show 0 ≤ key.claims.iat
    have hs := key.signed
    rw [(parseAndVerify_ok hk).1] at hs
    simpa [issuedOk, hs] using his

theorem Inv.readLive (h : Inv s) (hi : s.calls i = .anchored key accepted) : Inv (s.readLive i key accepted) := by
  have hw : (s.calls i).writing = false := by rw [hi]; rfl
  have hp := h.calls i
  rw [hi] at hp
  unfold State.readLive
  dsimp only
  split
  · exact h.setCall hw rfl trivial
  rename_i hc
  refine h.setCall hw rfl ⟨hp, ?_⟩
  have hle : accepted ≤ replayAnchor accepted s.mgr.claims := by
    unfold replayAnchor
    split
    · split <;> omega
    · exact Int.le_refl accepted
  omega

theorem Inv.reload (h : Inv s) (hi : s.calls i = .passed key accepted) (hq : ∀ j, (s.calls j).writing = false)
    (ha : accepted = s.acceptedIat) : Inv (s.reload i now key) := by
  unfold State.reload
  split
  · exact h.setCall (hq i) rfl trivial
  · exact h.setCall (hq i) rfl trivial
  · rename_i mgr applied hr
    obtain ⟨key', hk, hn, -⟩ := Manager.reloadNoDowngrade_ok hr
    rw [SignedKey.claims_eq key' key (parseAndVerify_ok hk).1] at hn
    exact h.write (fun j _ => hq j) rfl (h.accept hi hq ha hn) (fun hw => by cases hw)

/-- **One undisturbed step keeps the invariant, and does not replace the stored key by an older one.** -/
theorem Inv.step {a : Act ι} (h : Inv s) (hok : Undisturbed s a) (hs : LicenseReload.step s a = some s') :
    Inv s' ∧ PersistedLe s s' := by
  cases a with simp only [LicenseReload.step] at hs
  | request i text now =>
    have hr : (s.request i text now).row = s.row := by
      unfold State.request
      split
      · rfl
      · split <;> rfl
    split at hs
    · rename_i hi
      cases hs
      exact ⟨h.request (by rw [hi]; rfl) hok, .of_row hr⟩
    · rename_i hi
      cases hs
      exact ⟨h.request (by rw [hi]; rfl) hok, .of_row hr⟩
    · cases hs
  | readLive i =>
    split at hs
    · rename_i key accepted hi
      cases hs
      refine ⟨h.readLive hi, .of_row ?_⟩
      unfold State.readLive
      dsimp only
      split <;> rfl
    · cases hs
  | readCurrentKey i =>
    split at hs
    · rename_i key hi
      cases hs
      refine ⟨h.setCall (by rw [hi]; rfl) ?_ ?_, .of_row rfl⟩
      · split <;> rfl
      · split <;> trivial
    · cases hs
  | previewReload i =>
    split at hs
    · rename_i key hi
      cases hs
      exact ⟨h.setCall (by rw [hi]; rfl) rfl trivial, .of_row rfl⟩
    · cases hs
  | reload i now =>
    obtain ⟨hq, ha⟩ := hok
    split at hs
    · rename_i key accepted hi
      cases hs
      rw [hi] at ha
      refine ⟨h.reload hi hq (of_decide_eq_true ha), .of_row ?_⟩
      unfold State.reload
      split <;> rfl
    · cases hs
  | storeIat i =>
    split at hs
    · rename_i key applied hi
      cases hs
      have hc := h.calls i
      rw [hi] at hc
      have hw : (s.calls i).writing = true := by rw [hi]; rfl
      exact ⟨h.write (fun j hne => h.others hw hne) rfl ⟨hc.1, hc.2, rfl⟩ (fun hp => by cases hp), .of_row rfl⟩
    · cases hs
  | upsert i =>
    split at hs
    · rename_i key applied hi
      cases hs
      have hc := h.calls i
      rw [hi] at hc
      have hw : (s.calls i).writing = true := by rw [hi]; rfl
      refine ⟨h.write (fun j hne => h.others hw hne) rfl ⟨hc.1, hc.2.2, rfl⟩ (fun hp => by cases hp), ?_⟩
      intro x hx
      exact ⟨key.claims.iat, persistedIat_rowOf rfl, hc.2.1 x hx⟩
    · cases hs
  | setCurrentKey i =>
    split at hs
    · rename_i key applied hi
      cases hs
      have hc := h.calls i
      rw [hi] at hc
      have hw : (s.calls i).writing = true := by rw [hi]; rfl
      refine ⟨h.write (fun j hne => h.others hw hne) rfl trivial (fun _ => .inr ?_), .of_row rfl⟩
      exact ⟨key, hc.1, hc.2.1, hc.2.2, rfl⟩
    · cases hs

/-! ## Runs -/

/-- No call has begun, and the stored key is not newer than the anchor. -/
structure Fresh (s : State v ι) : Prop where
  idle : ∀ i, s.calls i = .idle
  accepted : s.accepted = []
  bound : ∀ x ∈ s.persistedIat, x ≤ replayAnchor s.acceptedIat s.mgr.claims

omit [DecidableEq ι] in
theorem Fresh.inv (h : Fresh s) : Inv s := by
  have hw : ∀ i, (s.calls i).writing = false := fun i => by rw [h.idle i]; rfl
  refine ⟨fun i => ?_, fun i j hi => ?_, fun _ => .inl ⟨h.accepted, h.bound⟩⟩
  · rw [h.idle i]
    trivial
  · rw [hw i] at hi
    cases hi

theorem inv_run {as : List (Act ι)} (h : Inv s) (hok : Along step Undisturbed s as) (hr : run step s as = some t) :
    Inv t ∧ PersistedLe s t := by
  refine run_invariant_along (fun t => Inv t ∧ PersistedLe s t) ?_ ⟨h, .of_row rfl⟩ hok hr
  rintro t a u ⟨hin, hle⟩ hn hs
  obtain ⟨hi, hl⟩ := hin.step hn hs
  exact ⟨hi, hle.trans hl⟩

theorem Phase.writing_of_quiet (h : p.quiet = true) : p.writing = false := by
  cases p <;> first | rfl | cases h

/-- **Undisturbed reloads are linear**: the stored key is never replaced by an older one, and in the end anchor, row and stream
have a newest accepted key, which a restart boots. -/
theorem reload_linear {s₀ s t : State v ι} {as bs : List (Act ι)} (h₀ : Fresh s₀)
    (hok : Along step Undisturbed s₀ (as ++ bs)) (hs : run step s₀ as = some s) (ht : run step s bs = some t) :
    PersistedLe s t ∧ (t.Quiet → t.accepted ≠ [] → ∃ key, Newest t.accepted key ∧ t.acceptedIat = key.claims.iat ∧
      t.row = some (rowOf key) ∧ t.currentKey = key.text ∧
      ∀ now envMgr envKey, now ≤ key.claims.exp → (∀ m ∈ envMgr, ∀ c ∈ m.claims, c.iat < key.claims.iat) →
        resolveProvisioningLicense v now envMgr envKey (rowOf key).key = .ok (.ofClaims key.claims, key.text)) := by
  rw [along_append] at hok
  have hinv := (inv_run h₀.inv hok.1 hs).1
  obtain ⟨hinv', hle⟩ := inv_run hinv (hok.2 s hs) ht
  refine ⟨hle, fun hquiet hne => ?_⟩
  rcases hinv'.settled fun i => Phase.writing_of_quiet (hquiet i) with ⟨hnil, -⟩ | ⟨key, hkey, hiat, hrow, hcur⟩
  · exact absurd hnil hne
  · exact ⟨key, hkey, hiat, hrow, hcur, fun now envMgr envKey hexp hnewer =>
      resolveProvisioningLicense_of_newer envKey hexp hnewer⟩

def demoClaims (iat : Int) : Claims := { Claims.zero with exp := 90, iat := iat }
def demoRow : LicenseRow := ⟨communityKey "5", str "community", [], 90⟩
def demoBoot : State anySignature Bool := ⟨.ofClaims (demoClaims 5), 0, some demoRow, communityKey "5", fun _ => .idle, []⟩

theorem boot_demo : boot anySignature Bool 0 none [] (some demoRow) = .ok demoBoot := by
  have hr : resolveProvisioningLicense anySignature 0 none [] (communityKey "5") =
      .ok (.ofClaims (demoClaims 5), communityKey "5") := by decide +kernel
  simp only [boot, map_some, getD_some, demoRow, hr]
  rfl

def demoCheck (i : Bool) (text : GoStr) : List (Act Bool) := [.request i text 0, .readLive i, .reload i 0]
def demoWrites (i : Bool) : List (Act Bool) := [.storeIat i, .upsert i, .setCurrentKey i]

theorem reload_linear_demo : ∃ s t, run step demoBoot (demoCheck false (communityKey "10") ++ demoWrites false) = some s ∧
      run step s (demoCheck true (communityKey "20") ++ demoWrites true) = some t ∧ PersistedLe s t ∧
      ∃ key, Newest t.accepted key ∧ t.acceptedIat = key.claims.iat ∧ t.row = some (rowOf key) ∧ t.currentKey = key.text ∧
        resolveProvisioningLicense anySignature 50 none [] (rowOf key).key = .ok (.ofClaims key.claims, key.text) := by
  have hfresh : Fresh demoBoot := ⟨fun _ => rfl, rfl, by decide +kernel⟩
  have hok : Along step Undisturbed demoBoot ((demoCheck false (communityKey "10") ++ demoWrites false) ++
      (demoCheck true (communityKey "20") ++ demoWrites true)) := of_decide_eq_true (by decide +kernel)
  obtain ⟨s, t, hs, ht, hquiet, hacc⟩ : ∃ s t, run step demoBoot (demoCheck false (communityKey "10") ++ demoWrites false) = some s ∧
      run step s (demoCheck true (communityKey "20") ++ demoWrites true) = some t ∧ (∀ i, (t.calls i).quiet = true) ∧
      t.accepted.map (·.claims) = [demoClaims 20, demoClaims 10] := exists_two_runs (by decide +kernel)
  obtain ⟨hle, hnewest⟩ := reload_linear hfresh hok hs ht
  obtain ⟨key, hkey, hiat, hrow, hcur, hboot⟩ := hnewest hquiet (fun hnil => by simp [hnil] at hacc)
  have hexp : key.claims.exp = 90 := by
    have hmem := mem_map_of_mem (f := fun k : SignedKey anySignature => k.claims) hkey.1
    rw [hacc] at hmem
    simp only [mem_cons, not_mem_nil, or_false] at hmem
    rcases hmem with h | h <;> rw [h] <;> rfl
  exact ⟨s, t, hs, ht, hle, key, hkey, hiat, hrow, hcur, hboot 50 none [] (by rw [hexp]; decide) (by simp)⟩

/-- **Bug**: two calls write in the other order than they were accepted in, and a restart boots the key of 10 instead of 20. -/
theorem concurrent_reloads_restore_older : ∃ s t, boot anySignature Bool 0 none [] (some demoRow) = .ok demoBoot ∧
      run step demoBoot (demoCheck false (communityKey "10") ++ demoCheck true (communityKey "20") ++ demoWrites true) = some s ∧
      run step s (demoWrites false) = some t ∧
      s.persistedIat = some 20 ∧ t.persistedIat = some 10 ∧
      t.Quiet ∧ t.accepted.map (·.claims.iat) = [20, 10] ∧ t.acceptedIat = 10 ∧ t.currentKey = communityKey "10" ∧
      t.row.map (·.key) = some (communityKey "10") ∧
      resolveProvisioningLicense anySignature 50 none [] (communityKey "10") = .ok (.ofClaims (demoClaims 10), communityKey "10") := by
  obtain ⟨s, t, hs, ht, hp, hp', hacc, hiat, hquiet, hcur, hrow⟩ : ∃ s t, run step demoBoot
      (demoCheck false (communityKey "10") ++ demoCheck true (communityKey "20") ++ demoWrites true) = some s ∧
      run step s (demoWrites false) = some t ∧ s.persistedIat = some 20 ∧ t.persistedIat = some 10 ∧
      t.accepted.map (·.claims.iat) = [20, 10] ∧ t.acceptedIat = 10 ∧ (∀ i, (t.calls i).quiet = true) ∧
      t.currentKey = communityKey "10" ∧ t.row.map (·.key) = some (communityKey "10") := exists_two_runs (by decide +kernel)
  exact ⟨s, t, boot_demo, hs, ht, hp, hp', hquiet, hacc, hiat, hcur, hrow, by decide +kernel⟩

end Sukko.LicenseReload
