import Sukko.Shared.License
/-
# A running license does not get weaker
-/

namespace Sukko.License
open List

theorem dimensionCovers_refl (a : Int) : dimensionCovers a a = true := by simp [dimensionCovers]

theorem dimensionCovers_trans {a b c : Int} (hab : dimensionCovers a b = true) (hbc : dimensionCovers b c = true) :
    dimensionCovers a c = true := by
  unfold dimensionCovers at *
  grind

theorem Limits.coversAtLeast_refl (l : Limits) : l.coversAtLeast l = true := by
  simp [Limits.coversAtLeast, dimensionCovers_refl]

theorem Limits.coversAtLeast_trans {l l' l'' : Limits} (h : l.coversAtLeast l' = true) (h' : l'.coversAtLeast l'' = true) :
    l.coversAtLeast l'' = true := by
  simp only [Limits.coversAtLeast, Bool.and_eq_true] at *
  obtain ⟨⟨⟨⟨h₁, h₂⟩, h₃⟩, h₄⟩, h₅⟩ := h
  obtain ⟨⟨⟨⟨h₁', h₂'⟩, h₃'⟩, h₄'⟩, h₅'⟩ := h'
  exact ⟨⟨⟨⟨dimensionCovers_trans h₁ h₁', dimensionCovers_trans h₂ h₂'⟩, dimensionCovers_trans h₃ h₃'⟩,
    dimensionCovers_trans h₄ h₄'⟩, dimensionCovers_trans h₅ h₅'⟩

variable (verifyAnyKey : GoStr → GoStr → Bool)

def Manager.pushed (m : Manager) (now : Int) (text : GoStr) : Manager :=
  match m.reloadNoDowngrade verifyAnyKey now text with
  | .ok (m', _) => m'
  | .error _ => m

def Manager.pushes (m : Manager) : List (Int × GoStr) → Manager
  | [] => m
  | (now, text) :: keys => (m.pushed verifyAnyKey now text).pushes keys

def Manager.appliedIats (m : Manager) : List (Int × GoStr) → List Int
  | [] => []
  | (now, text) :: keys =>
    match m.reloadNoDowngrade verifyAnyKey now text with
    | .ok (m', true) => (m'.claims.map Claims.iat).toList ++ m'.appliedIats keys
    | .ok (m', false) => m'.appliedIats keys
    | .error _ => m.appliedIats keys

variable {verifyAnyKey} {m m' : Manager} {now : Int} {text : GoStr}

/-- The second license is at least as strong as the first. -/
structure Manager.Covers (m' m : Manager) : Prop where
  edition : m'.edition.isAtLeast m.edition = true
  limits : m'.limits.coversAtLeast m.limits = true

theorem Manager.Covers.refl (m : Manager) : m.Covers m := ⟨by simp [Edition.isAtLeast], m.limits.coversAtLeast_refl⟩

theorem Manager.Covers.trans {m'' : Manager} (h : m''.Covers m') (h' : m'.Covers m) : m''.Covers m := by
  refine ⟨?_, Limits.coversAtLeast_trans h.limits h'.limits⟩
  have hb := h.edition
  have ha := h'.edition
  simp only [Edition.isAtLeast, decide_eq_true_eq] at *
  exact ha.trans hb

def Manager.Resolved (m : Manager) : Prop := ∃ c, m = .ofClaims c

theorem Manager.pushed_cases (verifyAnyKey : GoStr → GoStr → Bool) (m : Manager) (now : Int) (text : GoStr) :
    ((∀ m', m.reloadNoDowngrade verifyAnyKey now text ≠ .ok (m', true)) ∧ m.pushed verifyAnyKey now text = m) ∨
    ∃ c, m.reloadNoDowngrade verifyAnyKey now text = .ok (.ofClaims c, true) ∧
      m.pushed verifyAnyKey now text = .ofClaims c ∧ (Manager.ofClaims c).Covers m ∧
      ∀ d ∈ m.claims, d.iat = 0 ∨ d.iat < c.iat := by
  unfold pushed
  cases h : m.reloadNoDowngrade verifyAnyKey now text with
  | error e => exact Or.inl ⟨fun m' hm => (nomatch hm), rfl⟩
  | ok r =>
    obtain ⟨m', applied⟩ := r
    obtain ⟨key, -, hn, ⟨rfl, rfl⟩ | ⟨rfl, rfl, he, hl⟩⟩ := Manager.reloadNoDowngrade_ok h
    · refine Or.inl ⟨fun m' hm => ?_, rfl⟩
      cases hm
    · exact Or.inr ⟨key.claims, rfl, rfl, ⟨he, hl⟩, hn⟩

theorem Manager.covers_pushes (m : Manager) (keys : List (Int × GoStr)) : (m.pushes verifyAnyKey keys).Covers m := by
  induction keys generalizing m with
  | nil => exact .refl m
  | cons k keys ih =>
    refine (ih _).trans ?_
    obtain ⟨-, h⟩ | ⟨c, -, h, hc, -⟩ := Manager.pushed_cases verifyAnyKey m k.1 k.2
    · rw [h]
      exact .refl m
    · rw [h]
      exact hc

theorem Manager.Resolved.pushes (h : m.Resolved) (keys : List (Int × GoStr)) : (m.pushes verifyAnyKey keys).Resolved := by
  induction keys generalizing m with
  | nil => exact h
  | cons k keys ih =>
    refine ih ?_
    obtain ⟨-, hp⟩ | ⟨c, -, hp, -⟩ := Manager.pushed_cases verifyAnyKey m k.1 k.2
    · rw [hp]
      exact h
    · exact ⟨c, hp⟩

theorem Manager.appliedIats_chain {c : Claims} (hc : m.claims = some c) (hp : 0 < c.iat) (keys : List (Int × GoStr)) :
    (c.iat :: m.appliedIats verifyAnyKey keys).IsChain (· < ·) := by
  induction keys generalizing m c with
  | nil => exact isChain_singleton _
  | cons k keys ih =>
    unfold appliedIats
    obtain ⟨hno, h⟩ | ⟨d, hr, h, -, hn⟩ := Manager.pushed_cases verifyAnyKey m k.1 k.2
    · unfold pushed at h
      split
      · exact absurd ‹_› (hno _)
      · rename_i m' heq
        rw [heq] at h
        obtain rfl : m' = m := h
        exact ih hc hp
      · exact ih hc hp
    · have hlt : c.iat < d.iat := (hn c hc).resolve_left hp.ne'
      simp only [hr]
      exact isChain_cons_cons.2 ⟨hlt, ih rfl (hp.trans hlt)⟩

theorem Manager.Resolved.repushed (h : m.Resolved) {key : SignedKey verifyAnyKey} (hk : m.claims = some key.claims) :
    m.pushed verifyAnyKey now key.text = m := by
  obtain ⟨c, rfl⟩ := h
  obtain rfl := Option.some.inj hk
  obtain ⟨-, hp⟩ | ⟨d, hr, hp, -⟩ := Manager.pushed_cases verifyAnyKey (.ofClaims key.claims) now key.text
  · exact hp
  · obtain ⟨key', hv, -, ⟨hf, -⟩ | ⟨-, hd, -⟩⟩ := Manager.reloadNoDowngrade_ok hr
    · cases hf
    · rw [hp, hd, SignedKey.claims_eq key' key (parseAndVerify_ok hv).1]

theorem resolved_newManager (h : newManager verifyAnyKey now text = .ok m) : m.Resolved := by
  unfold newManager at h
  split at h
  · cases h
  split at h
  · cases h
  rename_i key _
  cases h
  exact ⟨key.claims, rfl⟩

theorem Manager.pushes_append (m : Manager) (xs ys : List (Int × GoStr)) :
    m.pushes verifyAnyKey (xs ++ ys) = (m.pushes verifyAnyKey xs).pushes verifyAnyKey ys := by
  induction xs generalizing m with
  | nil => rfl
  | cons x xs ih => exact ih _

/-- **A running license does not get weaker**, whatever keys are pushed: the rank and all limits only grow, a key that is not
applied changes nothing, and from a positive `iat` on the `iat`s of the applied keys increase. -/
theorem license_never_weaker (now₀ : Int) (text₀ : GoStr) (m : Manager) (hboot : newManager verifyAnyKey now₀ text₀ = .ok m)
    (xs ys : List (Int × GoStr)) :
    let m₁ := m.pushes verifyAnyKey xs
    let m₂ := m.pushes verifyAnyKey (xs ++ ys)
    (m₁.edition.normalize.rank ≤ m₂.edition.normalize.rank ∧ m₂.limits.coversAtLeast m₁.limits = true) ∧
    (∃ c, m₁.claims = some c ∧ m₁.edition = c.edition.normalize ∧ m₁.limits = resolveLimits m₁.edition c.limits ∧
      (0 < c.iat → (c.iat :: m₁.appliedIats verifyAnyKey ys).IsChain (· < ·)) ∧
      (∀ now text c', m₁.reloadNoDowngrade verifyAnyKey now text = .ok (.ofClaims c', true) → c.iat ≠ 0 → c.iat < c'.iat) ∧
      ∀ now (key : SignedKey verifyAnyKey), key.claims = c → m₁.pushed verifyAnyKey now key.text = m₁) ∧
    (∀ now text, (∀ m', m₁.reloadNoDowngrade verifyAnyKey now text ≠ .ok (m', true)) → m₁.pushed verifyAnyKey now text = m₁) ∧
    (∀ l : Limits, l.coversAtLeast l = true) ∧
    ∀ l l' l'' : Limits, l.coversAtLeast l' = true → l'.coversAtLeast l'' = true → l.coversAtLeast l'' = true := by
  intro m₁ m₂
  have hcov : m₂.Covers m₁ := by
    simp only [m₂, Manager.pushes_append]
    exact m₁.covers_pushes ys
  have hres : m₁.Resolved := (resolved_newManager hboot).pushes xs
  obtain ⟨c, hc⟩ := hres
  have hcl : m₁.claims = some c := by rw [hc]; rfl
  refine ⟨⟨of_decide_eq_true hcov.edition, hcov.limits⟩, ⟨c, hcl, by rw [hc]; rfl, by rw [hc]; rfl,
    fun hpos => Manager.appliedIats_chain hcl hpos ys, fun now text c' hr hne => ?_, fun now key hkey => ?_⟩,
    fun now text hno => ?_, Limits.coversAtLeast_refl, fun _ _ _ => Limits.coversAtLeast_trans⟩
  · obtain ⟨hno, -⟩ | ⟨d, hr', -, -, hn⟩ := Manager.pushed_cases verifyAnyKey m₁ now text
    · exact absurd hr (hno _)
    · rw [hr'] at hr
      have hd : some d = some c' := congrArg (fun r => r.toOption.bind fun p => p.1.claims) hr
      rw [← Option.some.inj hd]
      exact (hn c hcl).resolve_left hne
  · exact Manager.Resolved.repushed ⟨c, hc⟩ (hcl.trans (congrArg some hkey.symm))
  · obtain ⟨-, h⟩ | ⟨d, hr, -⟩ := Manager.pushed_cases verifyAnyKey m₁ now text
    · exact h
    · exact absurd hr (hno _)

theorem license_never_weaker_community : ∃ m, newManager anySignature 0 (communityKey "5") = .ok m ∧
    m.appliedIats anySignature [(0, communityKey "3"), (0, communityKey "7")] = [7] ∧
    (m.pushes anySignature [(0, communityKey "3"), (0, communityKey "7")]).limits.coversAtLeast m.limits = true := by
  have hok : (newManager anySignature 0 (communityKey "5")).map (fun m =>
      m.appliedIats anySignature [(0, communityKey "3"), (0, communityKey "7")]) = .ok [7] := by decide +kernel
  cases hm : newManager anySignature 0 (communityKey "5") with
  | error e =>
    rw [hm] at hok
    cases hok
  | ok m =>
    rw [hm] at hok
    refine ⟨m, rfl, Except.ok.inj hok, ?_⟩
    exact (license_never_weaker 0 (communityKey "5") m hm [] [(0, communityKey "3"), (0, communityKey "7")]).1.2

theorem negative_iat_not_increasing : (newManager anySignature 0 (communityKey "-1")).map (fun m =>
    (m.claims.map Claims.iat, m.appliedIats anySignature [(0, communityKey "0"), (0, communityKey "-5")])) =
      .ok (some (-1), [0, -5]) := by
  decide +kernel

end Sukko.License
