import Sukko.ProvApi.TenantConfig
import Sukko.Shared.Channels
/-
# Channel authorization on the gateway
-/

namespace Sukko.Gateway
open Provisioning ProvApi Auth Channels GoStr List

def getRulesForTenant (p : Provider) (tenantID : GoStr) : ChannelRules := (p.getChannelRules tenantID).getD noRules

def substitutePlaceholders (patterns : List GoStr) (claims : Option Claims) : List GoStr :=
  (patterns.map fun p => match claims with
    | some c => resolve p c
    | none => p).filter (!hasPlaceholder ·)

/-- See `gateway/permissions_tenant.go:113`. -/
def subscribePatterns (rules : ChannelRules) (claims : Option Claims) : List GoStr :=
  match claims with
  | none => substitutePlaceholders rules.public none
  | some c => substitutePlaceholders (computeAllowedPatterns rules c.groups) claims

def canSubscribe (p : Provider) (tenantID : GoStr) (claims : Option Claims) (channel : GoStr) : Bool :=
  matchAnyWildcard (subscribePatterns (getRulesForTenant p tenantID) claims) channel

/-- See `gateway/permissions_tenant.go:72`. -/
def filterChannels (p : Provider) (tenantID : GoStr) (claims : Option Claims) (channels : List GoStr) : List GoStr :=
  let patterns := subscribePatterns (getRulesForTenant p tenantID) claims
  channels.filter (matchAnyWildcard patterns ·)

/-- See `gateway/permissions_tenant.go:88`. -/
def canPublish (p : Provider) (tenantID : GoStr) (claims : Option Claims) (channel : GoStr) : Bool :=
  match claims with
  | none => false
  | some c =>
    matchAnyWildcard
      (substitutePlaceholders (computeAllowedPublishPatterns (getRulesForTenant p tenantID) c.groups) claims) channel

def trimPrefix (s p : GoStr) : GoStr := if hasPrefix s p then s.drop p.length else s

def wellFormed (tenantID channel : GoStr) : Bool :=
  validateChannelTenant channel tenantID && minInternalChannelParts ≤ partCount channel

/-- See `gateway/channel_filter.go:23`. -/
def filterSubscribeChannels (checker : Option Provider) (channels : List GoStr) (tenantID : GoStr)
    (claims : Option Claims) : List GoStr :=
  let valid := channels.filter (wellFormed tenantID)
  let tenantPrefix := tenantID ++ [dot]
  let stripped := valid.map (trimPrefix · tenantPrefix)
  match checker with
  | none => []
  | some p => (filterChannels p tenantID claims stripped).map (tenantPrefix ++ ·)

/-- See `gateway/channel_filter.go:100`. -/
def checkPublishAllowed (checker : Option Provider) (tenantID : GoStr) (claims : Option Claims) (channel : GoStr) : Bool :=
  match checker with
  | none => false
  | some p => canPublish p tenantID claims (trimPrefix channel (tenantID ++ [dot]))

/-! ## What the filter lets through -/

theorem append_trimPrefix {s p : GoStr} (h : hasPrefix s p = true) : p ++ trimPrefix s p = s := by
  unfold trimPrefix
  rw [if_pos h]
  exact prefix_iff_eq_append.1 (List.isPrefixOf_iff_prefix.1 h)

def subscribeAllowed (checker : Option Provider) (tenantID : GoStr) (claims : Option Claims) (channel : GoStr) : Bool :=
  wellFormed tenantID channel &&
    checker.any fun p => canSubscribe p tenantID claims (trimPrefix channel (tenantID ++ [dot]))

theorem filterSubscribeChannels_eq (checker : Option Provider) (channels : List GoStr) (tenantID : GoStr)
    (claims : Option Claims) :
    filterSubscribeChannels checker channels tenantID claims = channels.filter (subscribeAllowed checker tenantID claims) := by
  unfold filterSubscribeChannels subscribeAllowed
  cases checker with
  | none => simp
  | some p =>
    simp only [Option.any_some, filterChannels, filter_map, map_map]
    rw [filter_filter]
    have hc : channels.filter (fun ch => (canSubscribe p tenantID claims (trimPrefix ch (tenantID ++ [dot]))) &&
        wellFormed tenantID ch) = channels.filter (fun ch => wellFormed tenantID ch &&
        canSubscribe p tenantID claims (trimPrefix ch (tenantID ++ [dot]))) := by
      congr 1
      funext ch
      rw [Bool.and_comm]
    refine Eq.trans ?_ hc
    -- putting the prefix back undoes the stripping on the channels that carry it
    refine (map_congr_left ?_).trans (map_id _)
    intro ch hch
    obtain ⟨-, hok⟩ := mem_filter.1 hch
    have hp : hasPrefix ch (tenantID ++ [dot]) = true := by
      simp only [wellFormed, validateChannelTenant, Bool.and_eq_true] at hok
      exact hok.2.1.2
    exact append_trimPrefix hp

theorem wellFormed_iff {tenantID channel : GoStr} : wellFormed tenantID channel = true ↔
    tenantID ≠ [] ∧ tenantID ++ [dot] <+: channel ∧ 2 ≤ (split dot channel).length := by
  have hne : tenantID ++ [dot] <+: channel → channel ≠ [] := by
    rintro hp rfl
    simp at hp
  simp only [wellFormed, validateChannelTenant, minInternalChannelParts, partCount, length_split, Bool.and_eq_true,
    decide_eq_true_eq, hasPrefix_iff]
  grind

theorem trimPrefix_eq_drop {s p : GoStr} (h : p <+: s) : trimPrefix s p = s.drop p.length := by
  rw [trimPrefix, if_pos (hasPrefix_iff.2 h)]

/-- **Subscribe filtering is exact**: it keeps, in order and with repetitions, the channels with the prefix of the tenant and two
parts whose rest may be subscribed to, one by one. -/
theorem filterSubscribeChannels_exact (p : Provider) (tenantID : GoStr) (claims : Option Claims) (channels : List GoStr) :
    filterSubscribeChannels (some p) channels tenantID claims = channels.filter (fun ch =>
        decide (tenantID ≠ [] ∧ tenantID ++ [dot] <+: ch ∧ 2 ≤ (split dot ch).length) &&
          canSubscribe p tenantID claims (ch.drop (tenantID.length + 1))) ∧
      filterChannels p tenantID claims channels = channels.filter (canSubscribe p tenantID claims) ∧
      ∀ before after, filterSubscribeChannels (some p) (before ++ channels ++ after) tenantID claims =
        filterSubscribeChannels (some p) before tenantID claims ++ filterSubscribeChannels (some p) channels tenantID claims ++
          filterSubscribeChannels (some p) after tenantID claims := by
  refine ⟨?_, rfl, fun before after => by simp only [filterSubscribeChannels_eq, filter_append]⟩
  rw [filterSubscribeChannels_eq]
  refine filter_congr fun ch _ => ?_
  rw [Bool.eq_iff_iff, subscribeAllowed, Bool.and_eq_true, Bool.and_eq_true, decide_eq_true_eq, wellFormed_iff]
  refine and_congr_right ?_
  rintro ⟨-, hpre, -⟩
  rw [trimPrefix_eq_drop hpre, length_append, length_singleton, Option.any_some]

end Sukko.Gateway
