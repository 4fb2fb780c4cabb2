import Sukko.Provisioning.Store
import Sukko.Shared.Auth
/-
# Channels, patterns and rules
-/

namespace Sukko.Channels
open Provisioning Auth GoStr

/-! ## Wildcards -/

def star : UInt8 := 42

/-- See `shared/auth/pattern.go:16`. -/
def matchWildcard (pattern value : GoStr) : Bool :=
  if pattern = value then true
  else if pattern = [star] then true
  else if hasPrefix pattern [star] then hasSuffix value (pattern.drop 1)
  else if hasSuffix pattern [star] then hasPrefix value pattern.dropLast
  else
    match indexByte pattern star with
    | some idx => hasPrefix value (pattern.take idx) && hasSuffix value (pattern.drop (idx + 1))
    | none => false

def matchAnyWildcard (patterns : List GoStr) (value : GoStr) : Bool := patterns.any (matchWildcard · value)

/-! ## Placeholders -/

def isNameStart (b : UInt8) : Bool := (97 ≤ b && b ≤ 122) || (65 ≤ b && b ≤ 90) || b == 95
def isNameByte (b : UInt8) : Bool := isNameStart b || (48 ≤ b && b ≤ 57)

def placeholderAt : GoStr → Option (GoStr × GoStr)
  | 123 :: b :: s =>
    if isNameStart b then
      let name := b :: s.takeWhile isNameByte
      match s.dropWhile isNameByte with
      | 125 :: rest => some (name, rest)
      | _ => none
    else none
  | _ => none

def hasPlaceholder : GoStr → Bool
  | [] => false
  | b :: s => (placeholderAt (b :: s)).isSome || hasPlaceholder s

def getAttribute (c : Claims) (name : GoStr) : GoStr := (c.attributes.lookup name).getD []

def builtin (c : Claims) (name : GoStr) : GoStr :=
  if (["user_id", "sub", "app_id", "principal"].map str).contains name then c.subject
  else if (["tenant_id", "tenant"].map str).contains name then c.tenantID
  else []

def substitute (c : Claims) (name : GoStr) : GoStr :=
  if builtin c name ≠ [] then builtin c name
  else if getAttribute c name ≠ [] then getAttribute c name
  else [123] ++ name ++ [125]

/-- `Resolve`: replace all matches from the left, without rescanning what was put in. The first argument
bounds the number of steps. -/
def resolveSteps (c : Claims) : Nat → GoStr → GoStr
  | 0, s => s
  | _, [] => []
  | n + 1, b :: s =>
    match placeholderAt (b :: s) with
    | some (name, rest) => substitute c name ++ resolveSteps c n rest
    | none => b :: resolveSteps c n s

def resolve (pattern : GoStr) (c : Claims) : GoStr := resolveSteps c pattern.length pattern

/-! ## Channel names -/

/-- See `shared/auth/channel_tenant.go:9`. -/
def validateChannelTenant (channel tenantID : GoStr) : Bool :=
  channel ≠ [] && tenantID ≠ [] && hasPrefix channel (tenantID ++ [dot])

def minInternalChannelParts : Nat := 2
def partCount (channel : GoStr) : Nat := channel.count dot + 1

/-- See `shared/auth/channel.go:60`. -/
def isValidInternalChannel (channel : GoStr) : Bool :=
  channel ≠ [] && (split dot channel).all (· ≠ []) && minInternalChannelParts ≤ partCount channel

/-! ## Rules -/

def noRules : ChannelRules := ⟨[], [], [], [], [], []⟩
def deduplicate (s : List GoStr) : List GoStr := s.foldl (fun seen v => if v ∈ seen then seen else seen ++ [v]) []

def allowedPatterns (everyone : List GoStr) (mappings : List (GoStr × List GoStr)) (default groups : List GoStr) :
    List GoStr :=
  let ofGroups := groups.filterMap fun g => mappings.lookup g
  deduplicate (everyone ++ ofGroups.flatten ++ if ofGroups = [] then default else [])

def computeAllowedPatterns (r : ChannelRules) (groups : List GoStr) : List GoStr :=
  allowedPatterns r.public r.groupMappings r.default groups

def computeAllowedPublishPatterns (r : ChannelRules) (groups : List GoStr) : List GoStr :=
  allowedPatterns r.publishPublic r.publishGroupMappings r.publishDefault groups

end Sukko.Channels
