import Sukko.Shared.Channels
import Sukko.Lib.Frames
/-
# Wildcard patterns as frames

`MatchWildcard` gives one `*` a meaning: the first byte if that is a `*`, else the last byte, else the first `*` inside;
`pieces` are the literal parts on its two sides. As a glob every star stands for any string.
-/

namespace Sukko.Channels
open GoStr Frames List

def pieces (pattern : GoStr) : Option (GoStr × GoStr) :=
  if hasPrefix pattern [star] then some ([], pattern.drop 1)
  else if hasSuffix pattern [star] then some (pattern.dropLast, [])
  else pattern.cut star

variable {p r s : GoStr}

theorem eq_of_pieces (h : pieces p = some (r, s)) : p = r ++ star :: s := by
  unfold pieces at h
  split at h
  · rename_i hp
    obtain ⟨w, rfl⟩ := hasPrefix_iff.1 hp
    cases h
    rfl
  · split at h
    · rename_i hs
      obtain ⟨w, rfl⟩ := hasSuffix_iff.1 hs
      cases h
      simp
    · exact (cut_eq_some_iff.1 h).1

theorem matchWildcard_literal {p : GoStr} (h : pieces p = none) (v : GoStr) : matchWildcard p v = true ↔ p = v := by
  unfold pieces at h
  split at h
  · cases h
  split at h
  · cases h
  rename_i hp hs
  have hi : indexByte p star = none := Option.map_eq_none_iff.1 h
  have hne : p ≠ [star] := by
    rintro rfl
    exact hp rfl
  unfold matchWildcard
  by_cases heq : p = v
  · simp [heq]
  · simp [heq, hne, hp, hs, hi]

theorem framed_self (r s : GoStr) : Framed r s (r ++ star :: s) := by
  have h := framed_append r [star] s
  rwa [append_assoc] at h

/-- **A pattern with a star matches what its parts frame.** -/
theorem matchWildcard_pieces (h : pieces p = some (r, s)) (v : GoStr) :
    matchWildcard p v = true ↔ Framed r s v := by
  unfold matchWildcard
  by_cases heq : p = v
  · subst heq
    have hs : Framed r s p := eq_of_pieces h ▸ framed_self r s
    simp [hs]
  unfold pieces at h
  rw [if_neg heq]
  by_cases ha : p = [star]
  · subst ha
    cases h
    simp [Framed]
  rw [if_neg ha]
  split at h
  · rename_i hp
    cases h
    rw [if_pos hp, hasSuffix_iff]
    simp [Framed]
  · rename_i hp
    rw [if_neg hp]
    split at h
    · rename_i hsf
      cases h
      rw [if_pos hsf, hasPrefix_iff]
      simp [Framed]
    · rename_i hsf
      obtain ⟨i, hi, hc⟩ := Option.map_eq_some_iff.1 h
      cases hc
      rw [if_neg hsf, hi, Bool.and_eq_true, hasPrefix_iff, hasSuffix_iff]
      exact Iff.rfl

/-! ## The stars of a pattern as gaps -/

/-- A byte of `channelPatternRegex` (`shared/types/channel_rules.go:52`). -/
def isPatternByte (b : UInt8) : Bool := isNameByte b || [45, 46, 42, 123, 125].contains b

def isValidChannelPattern (pattern : GoStr) : Bool :=
  pattern ≠ [] && pattern.length ≤ 256 && pattern.all isPatternByte

def token (b : UInt8) : Token UInt8 := if b = star then .gap else .lit b

theorem map_spell_token (p : GoStr) : (p.map token).map (Token.spell star) = p := by
  rw [map_map]
  refine (map_congr_left fun b _ => ?_).trans (map_id p)
  by_cases hb : b = star <;> simp [token, Token.spell, hb]

theorem map_token_of_not_mem {r : GoStr} (h : star ∉ r) : r.map token = r.map .lit :=
  map_congr_left fun b hb => if_neg fun (heq : b = star) => h (heq ▸ hb)

/-- The value is the pattern with some string in place of each star. -/
def GlobMatches (pattern value : GoStr) : Prop := Fills (pattern.map token) value

theorem pieces_star (h : pieces p = some (r, s)) : star ∉ r ∨ s = [] := by
  unfold pieces at h
  split at h
  · cases h
    exact .inl not_mem_nil
  · split at h
    · cases h
      exact .inr rfl
    · exact .inl (cut_eq_some_iff.1 h).2

theorem star_not_mem_of_pieces {p : GoStr} (h : pieces p = none) : star ∉ p := by
  intro hm
  unfold pieces at h
  split at h
  · cases h
  split at h
  · cases h
  obtain ⟨r, s, rfl, hr⟩ := eq_append_cons_of_mem hm
  rw [cut_eq_some_iff.2 ⟨rfl, hr⟩] at h
  cases h

section Gaps
variable {ts : List (Token UInt8)} {r s : GoStr}

theorem tokens_of_pieces (h : pieces (ts.map (Token.spell star)) = some (r, s)) :
    ∃ before t after, ts = before ++ t :: after ∧ before.map (Token.spell star) = r ∧ t.spell star = star ∧
      after.map (Token.spell star) = s := by
  obtain ⟨before, rest, rfl, hb, hr⟩ := map_eq_append_iff.1 (eq_of_pieces h)
  obtain ⟨t, after, rfl, ht, ha⟩ := map_eq_cons_iff.1 hr
  exact ⟨before, t, after, rfl, hb, ht, ha⟩

theorem not_fills_of_overlap (h : pieces (ts.map (Token.spell star)) = some (r, s)) {k : GoStr} (hk : k ∈ overlaps r s) :
    ¬ Fills ts k := by
  intro hf
  obtain ⟨j, hj, hs, rfl⟩ := mem_overlaps.1 hk
  cases s with
  | nil => cases hj
  | cons b s =>
    have hb : b ∈ r := hs.subset (by simp)
    have hne : b ≠ star := by
      rintro rfl
      exact ((pieces_star h).resolve_right (by simp)) hb
    have hc := hf.count_le b
    rw [← count_spell hne, eq_of_pieces h, count_append, count_cons_of_ne (Ne.symm hne), count_append,
      count_cons_self, drop_succ_cons] at hc
    have hle : (s.drop j).count b ≤ s.count b := (drop_sublist j s).count_le b
    omega

/-- **What is matched fills the gaps**, for every value, exactly when the pattern is split at a gap (and not at a star
that is a letter) and its two parts do not overlap. -/
theorem matched_fills_iff : (∀ v, matchWildcard (ts.map (Token.spell star)) v = true → Fills ts v) ↔
      ∀ r s, pieces (ts.map (Token.spell star)) = some (r, s) → ts[r.length]? = some .gap ∧ overlaps r s = [] := by
  constructor
  · intro ha r s h
    obtain ⟨before, t, after, rfl, hr, ht, hs⟩ := tokens_of_pieces h
    have hl : before.length = r.length := by rw [← hr, length_map]
    refine ⟨?_, eq_nil_iff_forall_not_mem.2 fun k hk => ?_⟩
    · rw [← hl, List.getElem?_append_right (Nat.le_refl _), Nat.sub_self]
      cases t with
      | gap => rfl
      | lit b =>
        obtain rfl : b = star := ht
        have hf := ha (r ++ [0] ++ s) ((matchWildcard_pieces h _).2 (framed_append r [0] s))
        obtain ⟨x, y, hxy, hx, hy⟩ := hf.split
        cases hy with
        | lit _ hy =>
          rw [append_assoc, singleton_append] at hxy
          rcases pieces_star h with hst | rfl
          · rw [← hr] at hst
            rw [eq_lit_of_spell hst, hr] at hx
            rw [fills_lit.1 hx] at hxy
            cases append_cancel_left hxy
          · obtain rfl := map_eq_nil_iff.1 hs
            cases hy
            cases (append_inj' hxy rfl).2
    · have hm := (matchWildcard_pieces h k).2 (framed_of_mem_overlaps hk)
      exact not_fills_of_overlap h hk (ha k hm)
  · intro hg v hv
    cases h : pieces (ts.map (Token.spell star)) with
    | none =>
      rw [← (matchWildcard_literal h v).1 hv]
      exact fills_spell star ts
    | some parts =>
      obtain ⟨r, s⟩ := parts
      obtain ⟨hat, ho⟩ := hg r s h
      obtain ⟨before, t, after, rfl, hr, ht, hs⟩ := tokens_of_pieces h
      rcases framed_iff.1 ((matchWildcard_pieces h v).1 hv) with ⟨z, rfl⟩ | hk
      · have hl : before.length = r.length := by rw [← hr, length_map]
        rw [← hl, List.getElem?_append_right (Nat.le_refl _), Nat.sub_self] at hat
        obtain rfl : t = .gap := by simpa using hat
        rw [← hr, ← hs, append_assoc]
        exact (fills_spell star before).append (.gap z (fills_spell star after))
      · rw [ho] at hk
        cases hk

end Gaps

theorem globMatches_filter (p : GoStr) : GlobMatches p (p.filter (· ≠ star)) := by
  induction p with
  | nil => exact .nil
  | cons b p ih =>
    by_cases hb : b = star
    · have := Fills.gap [] ih
      simpa [GlobMatches, token, hb] using this
    · have := Fills.lit b ih
      simpa [GlobMatches, token, hb] using this

theorem globMatches_matched_iff {p : GoStr} : (∀ v, GlobMatches p v → matchWildcard p v = true) ↔ p.count star ≤ 1 := by
  constructor
  · intro ha
    have hv := ha _ (globMatches_filter p)
    cases h : pieces p with
    | none => rw [count_eq_zero.2 (star_not_mem_of_pieces h)]; omega
    | some parts =>
      obtain ⟨r, s⟩ := parts
      obtain ⟨hpr, hsf⟩ := (matchWildcard_pieces h _).1 hv
      have hr : star ∉ r := fun hm => by simpa using of_mem_filter (hpr.subset hm)
      have hs : star ∉ s := fun hm => by simpa using of_mem_filter (hsf.subset hm)
      rw [eq_of_pieces h, count_append, count_cons_self, count_eq_zero.2 hr, count_eq_zero.2 hs]
  · intro hc v hv
    cases h : pieces p with
    | none =>
      rw [GlobMatches, map_token_of_not_mem (star_not_mem_of_pieces h)] at hv
      exact (matchWildcard_literal h v).2 (fills_lit.1 hv).symm
    | some parts =>
      obtain ⟨r, s⟩ := parts
      have hp := eq_of_pieces h
      rw [hp, count_append, count_cons_self] at hc
      have hr : star ∉ r := count_eq_zero.1 (by omega)
      have hs : star ∉ s := count_eq_zero.1 (by omega)
      rw [GlobMatches, hp, map_append, map_cons, map_token_of_not_mem hr, map_token_of_not_mem hs] at hv
      obtain ⟨x, y, rfl, hx, hy⟩ := hv.split
      obtain rfl := fills_lit.1 hx
      cases hy with
      | gap w hy =>
        rw [fills_lit.1 hy, ← append_assoc]
        exact (matchWildcard_pieces h _).2 (framed_append _ w s)

/-- **Where `MatchWildcard` is glob matching**: it is, for every value, exactly for the patterns with at most one star
whose two literal parts do not overlap. -/
theorem matchWildcard_glob_iff (p : GoStr) : (∀ v, matchWildcard p v = true ↔ GlobMatches p v) ↔
      p.count star ≤ 1 ∧ ∀ r s, pieces p = some (r, s) → overlaps r s = [] := by
  have hfound := @matched_fills_iff (p.map token)
  rw [map_spell_token] at hfound
  constructor
  · intro hall
    refine ⟨globMatches_matched_iff.1 fun v => (hall v).2, fun r s h => ?_⟩
    exact (hfound.1 (fun v => (hall v).1) r s h).2
  · rintro ⟨hcount, hover⟩ v
    refine ⟨fun hv => hfound.2 (fun r s h => ⟨?_, hover r s h⟩) v hv, globMatches_matched_iff.2 hcount v⟩
    rw [List.getElem?_map, eq_of_pieces h, List.getElem?_append_right (Nat.le_refl _), Nat.sub_self]
    rfl

/-- **Bug**: two valid patterns. The one literal part may serve as both ends of the value, and a second star is a letter. -/
theorem overlapping_ends_match : isValidChannelPattern (str "a*a") = true ∧ isValidChannelPattern (str "*a*") = true ∧
      (matchWildcard (str "a*a") (str "a") = true ∧ ¬ GlobMatches (str "a*a") (str "a")) ∧
      (matchWildcard (str "*a*") (str "xay") = false ∧ GlobMatches (str "*a*") (str "xay")) := by
  refine ⟨by decide, by decide, ⟨by decide, fun h => ?_⟩, by decide, ?_⟩
  · have hcount := h.count_le 97
    revert hcount
    decide
  · exact .gap [120] (.lit 97 (.gap [121] .nil))

end Sukko.Channels
