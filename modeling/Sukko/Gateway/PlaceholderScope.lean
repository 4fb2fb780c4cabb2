import Sukko.Gateway.ChannelFilter
import Sukko.Shared.Wildcards
/-
# Claim values in channel patterns

`readPattern` is what the author of the rule wrote: the stars of the pattern are gaps and the claim's value is literal. As
strings the two agree, and a star in the value looks like a star of the pattern.
-/

namespace Sukko.Gateway
open ProvApi Auth Channels Frames List

def readSteps (c : Claims) : Nat → GoStr → List (Token UInt8)
  | 0, s => s.map token
  | _, [] => []
  | n + 1, b :: s =>
    match placeholderAt (b :: s) with
    | some (name, rest) => (substitute c name).map .lit ++ readSteps c n rest
    | none => token b :: readSteps c n s

def readPattern (pattern : GoStr) (c : Claims) : List (Token UInt8) := readSteps c pattern.length pattern

theorem map_spell_lit (w : GoStr) : (w.map Token.lit).map (Token.spell star) = w := by
  rw [map_map]
  exact map_id w

theorem spell_readSteps (c : Claims) (n : Nat) (s : GoStr) : (readSteps c n s).map (Token.spell star) = resolveSteps c n s := by
  induction n generalizing s with
  | zero => exact map_spell_token s
  | succ n ih =>
    cases s with
    | nil => rfl
    | cons b s =>
      rw [readSteps, resolveSteps]
      cases placeholderAt (b :: s) with
      | none =>
        have hb : (token b).spell star = b := by
          by_cases hb : b = star <;> simp [token, Token.spell, hb]
        rw [map_cons, ih, hb]
      | some found => rw [map_append, map_spell_lit, ih]

theorem spell_readPattern (pattern : GoStr) (c : Claims) :
    (readPattern pattern c).map (Token.spell star) = resolve pattern c := spell_readSteps c _ pattern

/-- One pattern in `substitutePlaceholders` and `MatchAnyWildcard` (`gateway/permissions_tenant.go:126`,
`shared/auth/pattern.go:48`). -/
def allowedBy (c : Claims) (pattern channel : GoStr) : Bool :=
  !hasPlaceholder (resolve pattern c) && matchWildcard (resolve pattern c) channel

theorem canSubscribe_iff (P : Provider) (tenantID : GoStr) (c : Claims) (channel : GoStr) :
    canSubscribe P tenantID (some c) channel = true ↔
      ∃ p ∈ computeAllowedPatterns (getRulesForTenant P tenantID) c.groups, allowedBy c p channel = true := by
  simp only [canSubscribe, subscribePatterns, substitutePlaceholders, matchAnyWildcard, any_eq_true, mem_filter,
    mem_map, allowedBy, Bool.and_eq_true]
  constructor
  · rintro ⟨_, ⟨⟨p, hp, rfl⟩, hn⟩, hm⟩
    exact ⟨p, hp, hn, hm⟩
  · rintro ⟨p, hp, hn, hm⟩
    exact ⟨_, ⟨⟨p, hp, rfl⟩, hn⟩, hm⟩

/-- The star at which the resolved pattern is split is one of the pattern's own, and its parts do not overlap. -/
def SplitsAtOwn (c : Claims) (pattern : GoStr) : Prop :=
  ∀ r s, pieces (resolve pattern c) = some (r, s) → (readPattern pattern c)[r.length]? = some .gap ∧ overlaps r s = []

/-- **Claim values are matched literally** exactly when the pattern is dropped as unresolved or `MatchWildcard` splits it at one
of its own stars into parts that do not overlap. -/
theorem placeholder_literal_iff (P : Provider) (tenantID : GoStr) (c : Claims) :
    (∀ channel, canSubscribe P tenantID (some c) channel = true ↔
      ∃ p ∈ computeAllowedPatterns (getRulesForTenant P tenantID) c.groups, allowedBy c p channel = true) ∧
    ((∀ p ∈ computeAllowedPatterns (getRulesForTenant P tenantID) c.groups, hasPlaceholder p = true →
        ∀ channel, allowedBy c p channel = true → Fills (readPattern p c) channel) ↔
      ∀ p ∈ computeAllowedPatterns (getRulesForTenant P tenantID) c.groups, hasPlaceholder p = true →
        hasPlaceholder (resolve p c) = true ∨ SplitsAtOwn c p) := by
  refine ⟨canSubscribe_iff P tenantID c, forall_congr' fun p => forall_congr' fun _ => forall_congr' fun _ => ?_⟩
  have hmatched := @matched_fills_iff (readPattern p c)
  rw [spell_readPattern] at hmatched
  cases hres : hasPlaceholder (resolve p c) with
  | true => simp [allowedBy, hres]
  | false => simpa [allowedBy, hres, SplitsAtOwn] using hmatched

def ownChannelRules : Provider :=
  { Provider.empty with
    snapshotReceived := true
    channelRules := Replica.Map.empty.set (str "acme") ⟨[], [], [str "user.\x7bprincipal\x7d"], [], [], []⟩ }

def claimsOf (subject : GoStr) : Claims := ⟨[], subject, [], none, none, str "acme", [], [], [], [], []⟩

/-- **Bug**: the rule is valid. A token whose subject is a star may read the channel of everybody. -/
theorem star_subject_reads_all : isValidChannelPattern (str "user.\x7bprincipal\x7d") = true ∧
      canSubscribe ownChannelRules (str "acme") (some (claimsOf (str "*"))) (str "user.bob") = true ∧
      ¬ Fills (readPattern (str "user.\x7bprincipal\x7d") (claimsOf (str "*"))) (str "user.bob") := by
  refine ⟨by decide, by decide +kernel, fun h => ?_⟩
  have hcount := h.count_le star
  revert hcount
  decide +kernel

end Sukko.Gateway
