import Sukko.Lib.NetIP
/-
# Webhook targets

Registration has ten blocks, the dialer eight of them and three predicates of `net.IP`. The dialer skips the answers of the
resolver, a parameter, that do not parse, but dials the first answer whether it parsed or not.
-/

namespace Sukko.Webhook
open GoStr NetIP

/-! ## Registration -/

def sharedAddresses : Block := .ofQuad 100 64 0 0 10
def thisNetwork : Block := .ofQuad 0 0 0 0 8

/-- See `provisioning/service.go:1864`. -/
def privateBlocks : List Block :=
  [.ofQuad 127 0 0 0 8, .v6 1 128, .ofQuad 10 0 0 0 8, .ofQuad 172 16 0 0 12, .ofQuad 192 168 0 0 16,
   .ofQuad 169 254 0 0 16, .ofGroup 0xFE80 10, .ofGroup 0xFC00 7, sharedAddresses, thisNetwork]

/-! ## Dialing -/

def privateRanges : List Block :=
  [.ofQuad 10 0 0 0 8, .ofQuad 172 16 0 0 12, .ofQuad 192 168 0 0 16, .ofQuad 127 0 0 0 8, .ofQuad 169 254 0 0 16,
   .v6 1 128, .ofGroup 0xFC00 7, .ofGroup 0xFE80 10]

def isPrivate (ip : IP) : Bool :=
  isLoopback ip || isLinkLocalUnicast ip || isLinkLocalMulticast ip || privateRanges.any (·.contains ip)

inductive DialErr
  | splitHostPort (addr : GoStr)
  | privateLiteral (host : GoStr)
  | lookup (host : GoStr)
  | noIPs (host : GoStr)
  | privateAnswer (host ip : GoStr)
deriving DecidableEq

structure Target where
  host : GoStr
  address : GoStr
deriving DecidableEq

/-- See `webhook/worker/ssrf.go:76`. -/
def dialContext (lookupHost : GoStr → Option (List GoStr)) (allowPrivate : Bool) (addr : GoStr) : Except DialErr Target :=
  match splitHostPort addr with
  | none => .error (.splitHostPort addr)
  | some (host, port) =>
    match parseIP host with
    | some ip => if !allowPrivate && isPrivate ip then .error (.privateLiteral host) else .ok ⟨host, addr⟩
    | none =>
      match lookupHost host with
      | none => .error (.lookup host)
      | some [] => .error (.noIPs host)
      | some (first :: rest) =>
        -- an answer that does not parse is skipped
        match if allowPrivate then none else (first :: rest).find? fun ip => (parseIP ip).any isPrivate with
        | some ip => .error (.privateAnswer host ip)
        | none => .ok ⟨first, joinHostPort first port⟩

/-! ## What is dialed -/

/-- The address `::`: registration does not know it, and dialing it reaches the local system. -/
def unspecified : Block := .v6 0 128

/-- What must not be reached. -/
def localBlocks : List Block := unspecified :: privateBlocks

def isPublic (address : GoStr) : Bool :=
  (splitHostPort address).any fun hp => (parseIP (dropZone hp.1)).any fun ip => !localBlocks.any (·.contains ip)

/-- A host that parses must not be in the three blocks that the dialer does not have; one that does not parse must be a public
literal without its zone and brackets. -/
def Safe (host : GoStr) : Prop :=
  match parseIP host with
  | some ip => sharedAddresses.contains ip = false ∧ thisNetwork.contains ip = false ∧ unspecified.contains ip = false
  | none =>
    openBracket ∉ bare host ∧ closeBracket ∉ bare host ∧
      ∃ ip, parseIP (dropZone (bare host)) = some ip ∧ ∀ b ∈ localBlocks, b.contains ip = false

theorem mem_localBlocks {b : Block} (h : b ∈ localBlocks) :
    b ∈ privateRanges ∨ b = sharedAddresses ∨ b = thisNetwork ∨ b = unspecified := by
  have ha : ∀ b ∈ localBlocks, b ∈ privateRanges ∨ b = sharedAddresses ∨ b = thisNetwork ∨ b = unspecified := by decide
  exact ha b h

variable {host port address : GoStr} {ip : IP}

theorem forall_localBlocks_iff (h : isPrivate ip = false) : (∀ b ∈ localBlocks, b.contains ip = false) ↔
    sharedAddresses.contains ip = false ∧ thisNetwork.contains ip = false ∧ unspecified.contains ip = false := by
  unfold isPrivate at h
  simp only [Bool.or_eq_false_iff, List.any_eq_false, Bool.not_eq_true] at h
  constructor
  · intro ha
    exact ⟨ha _ (by decide), ha _ (by decide), ha _ (by decide)⟩
  · rintro ⟨hs, ht, hu⟩ b hb
    rcases mem_localBlocks hb with hb | rfl | rfl | rfl
    · exact h.2 b hb
    · exact hs
    · exact ht
    · exact hu

theorem isPublic_iff (h : splitHostPort address = some (host, port)) :
    isPublic address = true ↔ ∃ ip, parseIP (dropZone host) = some ip ∧ ∀ b ∈ localBlocks, b.contains ip = false := by
  unfold isPublic
  simp [h, Option.any_eq_true]

theorem isPublic_literal_iff (h : splitHostPort address = some (host, port)) (hip : parseIP host = some ip) :
    isPublic address = true ↔ ∀ b ∈ localBlocks, b.contains ip = false := by
  rw [isPublic_iff h, dropZone_of_not_mem (not_mem_of_parseIP hip (by decide)), hip]
  simp

theorem bare_of_parseIP (h : parseIP host = some ip) : bare host = host := by
  unfold bare
  split
  · rfl
  · rw [if_neg]
    rintro ⟨hp, -⟩
    have hm : openBracket ∈ host := (hasPrefix_iff.1 hp).subset (List.mem_singleton_self _)
    exact not_mem_of_parseIP h (by decide) hm

theorem splitHostPort_join_literal (h : parseIP host = some ip) (hp : IsPort port) :
    splitHostPort (joinHostPort host port) = some (host, port) := by
  have ho : openBracket ∉ host := not_mem_of_parseIP h (by decide)
  have hc : closeBracket ∉ host := not_mem_of_parseIP h (by decide)
  rw [splitHostPort_joinHostPort host hp, bare_of_parseIP h]
  simp [ho, hc]

theorem isPublic_join_iff (hp : IsPort port) :
    isPublic (joinHostPort host port) = true ↔ openBracket ∉ bare host ∧ closeBracket ∉ bare host ∧
      ∃ ip, parseIP (dropZone (bare host)) = some ip ∧ ∀ b ∈ localBlocks, b.contains ip = false := by
  by_cases hbr : openBracket ∈ bare host ∨ closeBracket ∈ bare host
  · have hn : splitHostPort (joinHostPort host port) = none := by
      rw [splitHostPort_joinHostPort host hp, if_pos hbr]
    unfold isPublic
    rw [hn]
    rcases hbr with h | h <;> simp [h]
  · have hs : splitHostPort (joinHostPort host port) = some (bare host, port) := by
      rw [splitHostPort_joinHostPort host hp, if_neg hbr]
    rw [not_or] at hbr
    rw [isPublic_iff hs]
    simp [hbr]

/-- **When the dialer covers registration**: what is dialed is a public literal iff what it was made of is safe. -/
theorem dialed_public_iff (lookupHost : GoStr → Option (List GoStr)) (addr : GoStr) (t : Target)
    (h : dialContext lookupHost false addr = .ok t) : isPublic t.address = true ↔ Safe t.host := by
  unfold dialContext at h
  split at h
  · cases h
  rename_i host port hsplit
  split at h
  · rename_i ip hip
    split at h
    · cases h
    rename_i hpriv
    cases h
    have hpriv : isPrivate ip = false := by simpa using hpriv
    simp only [Safe, hip]
    rw [isPublic_literal_iff hsplit hip, forall_localBlocks_iff hpriv]
  · split at h
    · cases h
    · cases h
    rename_i first rest _
    simp only [Bool.false_eq_true, if_false] at h
    split at h
    · cases h
    rename_i hfind
    cases h
    have hport := isPort_of_splitHostPort hsplit
    have hfirst := List.find?_eq_none.1 hfind first List.mem_cons_self
    unfold Safe
    cases hip : parseIP first with
    | none => exact isPublic_join_iff hport
    | some ip =>
      have hpriv : isPrivate ip = false := by simpa [hip] using hfirst
      dsimp only
      rw [isPublic_literal_iff (splitHostPort_join_literal hip hport) hip, forall_localBlocks_iff hpriv]

def answers (ip : GoStr) : GoStr → Option (List GoStr) := fun _ => some [ip]

theorem dialed_public_iff_publicName :
    ∃ t, dialContext (answers (str "93.184.216.34")) false (str "hook.example:443") = .ok t ∧ isPublic t.address = true :=
  ⟨_, rfl, (dialed_public_iff (answers (str "93.184.216.34")) (str "hook.example:443") _ rfl).2 ⟨by decide, by decide, by decide⟩⟩

/-- The answer is dialed as this address, which is not public. -/
def Reaches (answer address : GoStr) : Prop :=
  dialContext (answers answer) false (str "hook.example:443") = .ok ⟨answer, address⟩ ∧ isPublic address = false

instance (answer address : GoStr) : Decidable (Reaches answer address) := inferInstanceAs (Decidable (_ ∧ _))

/-- **Bug**: a shared address, `0.0.0.0`, `::`, a link-local address with a zone, an answer in brackets and one that is no address
at all are dialed. -/
theorem private_addresses_dialed :
    Reaches (str "100.64.0.1") (str "100.64.0.1:443") ∧ Reaches (str "0.0.0.0") (str "0.0.0.0:443") ∧
      Reaches (str "::") (str "[::]:443") ∧
      Reaches (str "fe80::1%eth0") (str "[fe80::1%eth0]:443") ∧ Reaches (str "[10.0.0.1]") (str "[10.0.0.1]:443") ∧
      Reaches (str "localhost") (str "localhost:443") := by
  decide +kernel

end Sukko.Webhook
