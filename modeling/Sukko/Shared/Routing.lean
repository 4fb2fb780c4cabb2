import Sukko.Lib.GoString
/-
# Routing patterns
-/

namespace Sukko.Routing
open List

def star : GoStr := str "*"
def doubleStar : GoStr := str "**"

def normalizeSegment (s : GoStr) : GoStr := if s = star then doubleStar else s

/-- Bare `*` segments become `**`. -/
def normalizePattern (pattern : GoStr) : GoStr :=
  if pattern = [] then pattern
  else GoStr.join GoStr.dot ((pattern.split GoStr.dot).map normalizeSegment)

inductive PatternErr
  | multipleDoubleWildcard
deriving DecidableEq

def segMatches (ps cs : GoStr) : Bool := ps == star || ps == cs
def allMatch (ps cs : List GoStr) : Bool := (ps.zip cs).all fun p => segMatches p.1 p.2

/-- See `shared/routing/constants.go:51`. -/
def matchRoutingPattern (pattern channel : GoStr) : Except PatternErr Bool :=
  if channel = [] then .ok false
  else
    let pSegs := pattern.split GoStr.dot
    let cSegs := channel.split GoStr.dot
    if 1 < pSegs.count doubleStar then .error .multipleDoubleWildcard
    else
      match pSegs.findIdx? (· == doubleStar) with
      | none => .ok (decide (pSegs.length = cSegs.length) && allMatch pSegs cSegs)
      | some doubleIdx =>
        let before := pSegs.take doubleIdx
        let after := pSegs.drop (doubleIdx + 1)
        .ok (decide (before.length + 1 + after.length ≤ cSegs.length) && allMatch before cSegs &&
          allMatch after (cSegs.drop (cSegs.length - after.length)))

/-! ## What a pattern says -/

/-- The segments of a channel can be split as the segments of the pattern say. -/
inductive Matches : List GoStr → List GoStr → Prop
  | nil : Matches [] []
  | literal {p : GoStr} {ps cs : List GoStr} (hstar : p ≠ star) (hdouble : p ≠ doubleStar) (h : Matches ps cs) :
      Matches (p :: ps) (p :: cs)
  | star (c : GoStr) {ps cs : List GoStr} (h : Matches ps cs) : Matches (star :: ps) (c :: cs)
  /-- `**` stands for one or more segments. -/
  | doubleStar (c : GoStr) (mid : List GoStr) {ps cs : List GoStr} (h : Matches ps cs) :
      Matches (doubleStar :: ps) (c :: (mid ++ cs))

variable {ps qs cs : List GoStr}

theorem matches_append : Matches (ps ++ qs) cs ↔ ∃ a b, cs = a ++ b ∧ Matches ps a ∧ Matches qs b := by
  constructor
  · intro h
    induction ps generalizing cs with
    | nil => exact ⟨[], cs, rfl, .nil, h⟩
    | cons p ps ih =>
      cases h with
      | literal h₁ h₂ h =>
        obtain ⟨a, b, rfl, ha, hb⟩ := ih h
        exact ⟨_, b, rfl, .literal h₁ h₂ ha, hb⟩
      | star c h =>
        obtain ⟨a, b, rfl, ha, hb⟩ := ih h
        exact ⟨_, b, rfl, .star c ha, hb⟩
      | doubleStar c mid h =>
        obtain ⟨a, b, rfl, ha, hb⟩ := ih h
        exact ⟨_, b, by simp, .doubleStar c mid ha, hb⟩
  · rintro ⟨a, b, rfl, ha, hb⟩
    induction ha with
    | nil => exact hb
    | literal h₁ h₂ _ ih => exact .literal h₁ h₂ ih
    | star c _ ih => exact .star c ih
    | doubleStar c mid _ ih => simpa using Matches.doubleStar c mid ih

theorem matches_iff (h : doubleStar ∉ ps) : Matches ps cs ↔ ps.length = cs.length ∧ allMatch ps cs = true := by
  induction ps generalizing cs with
  | nil => cases cs <;> simp [allMatch, Matches.nil]; rintro ⟨⟩
  | cons p ps ih =>
    rw [mem_cons, not_or] at h
    constructor
    · intro hm
      cases hm with
      | literal _ _ hm | star c hm => have := (ih h.2).1 hm; simp_all [allMatch, segMatches]
      | doubleStar => exact absurd rfl h.1
    · rintro ⟨hl, ha⟩
      cases cs with
      | nil => cases hl
      | cons c cs =>
        have hm : Matches ps cs := (ih h.2).2 (by simp_all [allMatch])
        have hs : p = star ∨ p = c := by simp_all [allMatch, segMatches]
        by_cases hp : p = star
        · subst hp
          exact .star c hm
        · cases hs.resolve_left hp
          exact .literal hp (Ne.symm h.1) hm

theorem le_length_iff {n m : Nat} : n + 1 + m ≤ cs.length ↔
    ∃ a c mid b, cs = a ++ c :: (mid ++ b) ∧ a.length = n ∧ b.length = m := by
  constructor
  · intro h
    obtain ⟨c, rest, hr⟩ : ∃ c rest, cs.drop n = c :: rest :=
      exists_cons_of_ne_nil (ne_nil_of_length_pos (by rw [length_drop]; omega))
    have hl := congrArg List.length hr
    rw [length_drop, length_cons] at hl
    refine ⟨cs.take n, c, rest.take (rest.length - m), rest.drop (rest.length - m), ?_, ?_, ?_⟩
    · rw [take_append_drop, ← hr, take_append_drop]
    · rw [length_take]
      omega
    · rw [length_drop]
      omega
  · rintro ⟨a, c, mid, b, rfl, rfl, rfl⟩
    simp
    omega

theorem allMatch_append {a : List GoStr} (h : ps.length = a.length) (b : List GoStr) :
    allMatch ps (a ++ b) = allMatch ps a := by
  have hz : ps.zip (a ++ b) = ps.zip a := by
    conv_lhs => rw [← append_nil ps]
    rw [zip_append h, zip_nil_left, append_nil]
  rw [allMatch, hz, allMatch]

theorem matches_doubleStar : Matches (doubleStar :: qs) cs ↔ ∃ c mid b, cs = c :: (mid ++ b) ∧ Matches qs b := by
  constructor
  · intro h
    cases h with
    | literal _ hd => exact absurd rfl hd
    | doubleStar c mid h => exact ⟨c, mid, _, rfl, h⟩
  · rintro ⟨c, mid, b, rfl, h⟩
    exact .doubleStar c mid h

/-- **The test around `**`**, from both ends of the channel. -/
theorem matches_double_iff (hps : doubleStar ∉ ps) (hqs : doubleStar ∉ qs) :
    Matches (ps ++ doubleStar :: qs) cs ↔ ps.length + 1 + qs.length ≤ cs.length ∧ allMatch ps cs = true ∧
      allMatch qs (cs.drop (cs.length - qs.length)) = true := by
  have hbc : ∀ a c mid b, (b : List GoStr).length = qs.length →
      (a ++ c :: (mid ++ b)).drop ((a ++ c :: (mid ++ b)).length - qs.length) = b := by
    intro a c mid b hb
    rw [← hb, ← cons_append, ← append_assoc, length_append, Nat.add_sub_cancel, drop_left]
  rw [le_length_iff, matches_append]
  simp only [matches_doubleStar]
  constructor
  · rintro ⟨a, -, rfl, ha, c, mid, b, rfl, hb⟩
    obtain ⟨ha, hall⟩ := (matches_iff hps).1 ha
    obtain ⟨hb, hal⟩ := (matches_iff hqs).1 hb
    exact ⟨⟨a, c, mid, b, rfl, ha.symm, hb.symm⟩, by rw [allMatch_append ha, hall], by rw [hbc a c mid b hb.symm, hal]⟩
  · rintro ⟨⟨a, c, mid, b, rfl, ha, hb⟩, hall, hal⟩
    rw [allMatch_append ha.symm] at hall
    rw [hbc a c mid b hb] at hal
    exact ⟨a, _, rfl, (matches_iff hps).2 ⟨ha.symm, hall⟩, c, mid, b, rfl, (matches_iff hqs).2 ⟨hb.symm, hal⟩⟩

variable {pattern channel : GoStr}

theorem matchRoutingPattern_iff (hc : channel ≠ []) (ho : (pattern.split GoStr.dot).count doubleStar ≤ 1) :
    matchRoutingPattern pattern channel = .ok true ↔ Matches (pattern.split GoStr.dot) (channel.split GoStr.dot) := by
  rw [matchRoutingPattern, if_neg hc, if_neg (Nat.not_lt.2 ho)]
  generalize pattern.split GoStr.dot = segs at ho ⊢
  dsimp only
  split
  · rename_i hn
    have hno : doubleStar ∉ segs := fun hm => by simpa using List.findIdx?_eq_none_iff.1 hn _ hm
    simp [matches_iff hno]
  · rename_i i hi
    obtain ⟨hlt, hg, -⟩ := List.findIdx?_eq_some_iff_getElem.1 hi
    have hs : segs.take i ++ doubleStar :: segs.drop (i + 1) = segs := by
      rw [← eq_of_beq hg, ← drop_eq_getElem_cons hlt, take_append_drop]
    rw [← hs, count_append, count_cons_self] at ho
    have hb : doubleStar ∉ segs.take i := count_eq_zero.1 (by omega)
    have ha : doubleStar ∉ segs.drop (i + 1) := count_eq_zero.1 (by omega)
    conv_rhs => rw [← hs]
    simp [matches_double_iff hb ha, and_assoc]

theorem matchRoutingPattern_error_iff : matchRoutingPattern pattern channel = .error .multipleDoubleWildcard ↔
    channel ≠ [] ∧ 1 < (pattern.split GoStr.dot).count doubleStar := by
  unfold matchRoutingPattern
  grind

/-! ## Normalized patterns -/

theorem split_normalizePattern (pattern : GoStr) :
    (normalizePattern pattern).split GoStr.dot = (pattern.split GoStr.dot).map normalizeSegment := by
  unfold normalizePattern
  split
  · subst pattern
    decide
  · refine GoStr.split_join (by simp [GoStr.split_ne_nil]) ?_
    intro p hp
    obtain ⟨q, hq, rfl⟩ := mem_map.1 hp
    have := GoStr.not_mem_of_mem_split hq
    unfold normalizeSegment
    split
    · decide
    · exact this

theorem normalizeSegment_idem (s : GoStr) : normalizeSegment (normalizeSegment s) = normalizeSegment s := by
  unfold normalizeSegment
  split <;> simp_all [star, doubleStar, str]

theorem normalizePattern_idem (pattern : GoStr) : normalizePattern (normalizePattern pattern) = normalizePattern pattern := by
  by_cases hp : pattern = []
  · subst hp
    rfl
  by_cases hn : normalizePattern pattern = []
  · rw [hn]
    rfl
  calc normalizePattern (normalizePattern pattern)
      = GoStr.join GoStr.dot (((normalizePattern pattern).split GoStr.dot).map normalizeSegment) := if_neg hn
    _ = GoStr.join GoStr.dot ((pattern.split GoStr.dot).map normalizeSegment) := by
      have hi : normalizeSegment ∘ normalizeSegment = normalizeSegment := funext normalizeSegment_idem
      rw [split_normalizePattern, map_map, hi]
    _ = normalizePattern pattern := (if_neg hp).symm

theorem Matches.normalize (h : Matches ps cs) : Matches (ps.map normalizeSegment) cs := by
  induction h with
  | nil => exact .nil
  | literal hs hd _ ih =>
    rw [map_cons, normalizeSegment, if_neg hs]
    exact .literal hs hd ih
  | star c _ ih => exact .doubleStar c [] ih
  | doubleStar c mid _ ih => exact .doubleStar c mid ih

theorem count_normalize (ps : List GoStr) : (ps.map normalizeSegment).count doubleStar = ps.count star + ps.count doubleStar := by
  induction ps with
  | nil => rfl
  | cons p ps ih =>
    have hne : star ≠ doubleStar := by decide
    simp only [map_cons, count_cons, ih, normalizeSegment]
    grind

/-- **Routing patterns mean what they say**, with at most one `**`; more are the error; normalizing loses no channel and is done
once. -/
theorem matchRoutingPattern_segments (pattern channel : GoStr) :
    (channel ≠ [] → (pattern.split GoStr.dot).count doubleStar ≤ 1 →
      (matchRoutingPattern pattern channel = .ok true ↔ Matches (pattern.split GoStr.dot) (channel.split GoStr.dot))) ∧
    (matchRoutingPattern pattern channel = .error .multipleDoubleWildcard ↔
      channel ≠ [] ∧ 1 < (pattern.split GoStr.dot).count doubleStar) ∧
    ((pattern.split GoStr.dot).count star + (pattern.split GoStr.dot).count doubleStar ≤ 1 →
      matchRoutingPattern pattern channel = .ok true → matchRoutingPattern (normalizePattern pattern) channel = .ok true) ∧
    normalizePattern (normalizePattern pattern) = normalizePattern pattern := by
  refine ⟨matchRoutingPattern_iff, matchRoutingPattern_error_iff, fun hone hmatch => ?_, normalizePattern_idem pattern⟩
  have hc : channel ≠ [] := by
    rintro rfl
    cases hmatch
  have hnorm : ((normalizePattern pattern).split GoStr.dot).count doubleStar ≤ 1 := by
    rw [split_normalizePattern, count_normalize]
    exact hone
  rw [matchRoutingPattern_iff hc (by omega)] at hmatch
  rw [matchRoutingPattern_iff hc hnorm, split_normalizePattern]
  exact hmatch.normalize

theorem matchRoutingPattern_segments_star : Matches (["acme", "*", "trade"].map str) (["acme", "btc", "trade"].map str) ∧
      matchRoutingPattern (normalizePattern (str "acme.*.trade")) (str "acme.btc.trade") = .ok true ∧
      matchRoutingPattern (str "acme.*.trade") (str "acme.btc.eur.trade") = .ok false := by
  obtain ⟨hiff, -, hnorm, -⟩ := matchRoutingPattern_segments (str "acme.*.trade") (str "acme.btc.trade")
  have hmatch : matchRoutingPattern (str "acme.*.trade") (str "acme.btc.trade") = .ok true := by decide +kernel
  exact ⟨(hiff (by decide) (by decide)).1 hmatch, hnorm (by decide) hmatch, by decide +kernel⟩

end Sukko.Routing
