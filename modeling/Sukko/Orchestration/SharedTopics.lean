import Sukko.Orchestration.ConsumerPool
/-
# What the shared consumer fetches after any number of refreshes

The client consumes every topic that was ever listed, has paused every topic that ever left the list, and the pool remembers
the last list (`Tracks`). Nothing resumes a topic.
-/

namespace Sukko.Orchestration
open Steps List Option

namespace Pool

def consumed (p : Pool) : Finset GoStr := p.sharedConsumer.elim ∅ SharedConsumer.consumed
def paused (p : Pool) : Finset GoStr := p.sharedConsumer.elim ∅ SharedConsumer.paused

/-- The shared consumer fetches the listed topics and no others. -/
def Follows (p : Pool) (topics : List GoStr) : Prop :=
  (∀ t ∈ topics, t ∈ p.consumed ∧ t ∉ p.paused) ∧ ∀ t, t ∉ topics → t ∈ p.paused ∨ t ∉ p.consumed

end Pool

def HasLeft (lists : List (List GoStr)) (t : GoStr) : Prop := ∃ l₁ l₂, [l₁, l₂].Sublist lists ∧ t ∈ l₁ ∧ t ∉ l₂

/-- No topic comes back to the list after it has left it. -/
def NoReturn (lists : List (List GoStr)) : Prop := ∀ l₁ l₂ l₃, [l₁, l₂, l₃].Sublist lists → ∀ t ∈ l₁, t ∉ l₂ → t ∉ l₃

/-! ## One more list -/

theorem pair_sublist_snoc {α : Type} {x y z : α} {xs : List α} :
    [x, y].Sublist (xs ++ [z]) ↔ [x, y].Sublist xs ∨ (x ∈ xs ∧ y = z) := by
  rw [← reverse_sublist, reverse_append]
  simp only [reverse_cons, reverse_nil, nil_append, cons_append, sublist_cons_iff]
  have hrv : [y, x].Sublist xs.reverse ↔ [x, y].Sublist xs := by
    rw [← reverse_sublist]
    simp
  rw [hrv]
  constructor
  · rintro (h | ⟨r, hr, hs⟩)
    · exact .inl h
    · obtain ⟨rfl, rfl⟩ : y = z ∧ [x] = r := by simpa using hr
      exact .inr ⟨by simpa using hs, rfl⟩
  · rintro (h | ⟨h, rfl⟩)
    · exact .inl h
    · exact .inr ⟨[x], rfl, by simpa using h⟩

variable {lists : List (List GoStr)} {p q : Pool} {t : GoStr} {topics : List GoStr}

theorem hasLeft_snoc {l : List GoStr} : HasLeft (lists ++ [l]) t ↔ HasLeft lists t ∨ ((∃ l' ∈ lists, t ∈ l') ∧ t ∉ l) := by
  constructor
  · rintro ⟨l₁, l₂, hs, h₁, h₂⟩
    rcases pair_sublist_snoc.1 hs with h | ⟨h, rfl⟩
    · exact .inl ⟨l₁, l₂, h, h₁, h₂⟩
    · exact .inr ⟨⟨l₁, h, h₁⟩, h₂⟩
  · rintro (⟨l₁, l₂, h, h₁, h₂⟩ | ⟨⟨l', h, h₁⟩, h₂⟩)
    · exact ⟨l₁, l₂, pair_sublist_snoc.2 (.inl h), h₁, h₂⟩
    · exact ⟨l', l, pair_sublist_snoc.2 (.inr ⟨h, rfl⟩), h₁, h₂⟩

theorem exists_mem_of_mem_last (ht : t ∈ lists.getLastD []) : ∃ l ∈ lists, t ∈ l := by
  rcases eq_nil_or_concat lists with rfl | ⟨as, z, rfl⟩
  · simp at ht
  · exact ⟨z, by simp, by simpa using ht⟩

theorem hasLeft_of_not_mem_last (hm : ∃ l ∈ lists, t ∈ l) (hls : t ∉ lists.getLastD []) : HasLeft lists t := by
  obtain ⟨l, hl, ht⟩ := hm
  obtain ⟨as, z, rfl⟩ : ∃ as z, lists = as ++ [z] := by
    rcases eq_nil_or_concat lists with rfl | ⟨as, z, h⟩
    · simp at hl
    · exact ⟨as, z, by simpa using h⟩
  simp only [getLastD_concat] at hls
  rcases mem_append.1 hl with h | h
  · exact hasLeft_snoc.2 (.inr ⟨⟨l, h, ht⟩, hls⟩)
  · obtain rfl := mem_singleton.1 h
    exact absurd ht hls

/-! ## The three sets -/

/-- What the pool knows after the registry has answered these lists. -/
structure Tracks (p : Pool) (lists : List (List GoStr)) : Prop where
  unblocked : p.blockedSharedTopics = ∅
  topics : p.sharedTopics = (lists.getLastD []).toFinset
  consumed : ∀ t, t ∈ p.consumed ↔ ∃ l ∈ lists, t ∈ l
  paused : ∀ t, t ∈ p.paused ↔ HasLeft lists t
  waiting : p.sharedConsumer = none → ∀ l ∈ lists, l = []

theorem Tracks.new : Tracks Pool.new [] where
  unblocked := rfl
  topics := rfl
  consumed t := by simp [Pool.consumed, Pool.new]
  paused t := by simp [Pool.paused, Pool.new, HasLeft]
  waiting := by simp

section
variable (h : Tracks p lists)
include h

theorem Tracks.congr (hc : q.sharedConsumer = p.sharedConsumer) (ht : q.sharedTopics = p.sharedTopics)
    (hb : q.blockedSharedTopics = p.blockedSharedTopics) : Tracks q lists where
  unblocked := hb.trans h.unblocked
  topics := ht.trans h.topics
  consumed := by simpa only [Pool.consumed, hc] using h.consumed
  paused := by simpa only [Pool.paused, hc] using h.paused
  waiting := by simpa only [hc] using h.waiting

theorem Tracks.start (hn : p.sharedConsumer = none) (topics : List GoStr) :
    Tracks ((p.startShared topics.toFinset).publishTopics topics.toFinset) (lists ++ [topics]) where
  unblocked := h.unblocked
  topics := by simp [Pool.startShared, Pool.publishTopics]
  consumed t := by
    have he := h.waiting hn
    simp only [Pool.consumed, Pool.startShared, Pool.publishTopics, elim_some, List.mem_toFinset]
    constructor
    · exact fun ht => ⟨topics, by simp, ht⟩
    · rintro ⟨l, hl, ht⟩
      rcases mem_append.1 hl with hold | hnw
      · simp [he l hold] at ht
      · rwa [mem_singleton.1 hnw] at ht
  paused t := by
    have he := h.waiting hn
    simp only [Pool.paused, Pool.startShared, Pool.publishTopics, elim_some, Finset.notMem_empty, false_iff]
    rw [hasLeft_snoc, ← h.paused]
    rintro (hlf | ⟨⟨l, hl, ht⟩, _⟩)
    · simp [Pool.paused, hn] at hlf
    · simp [he l hl] at ht
  waiting := by simp [Pool.startShared, Pool.publishTopics]

theorem Tracks.idle (hn : p.sharedConsumer = none) : p.sharedTopics = ∅ ∧ Tracks p (lists ++ [[]]) := by
  have he := h.waiting hn
  have htp : p.sharedTopics = ∅ := by
    rw [h.topics, toFinset_eq_empty_iff, eq_nil_iff_forall_not_mem]
    intro t ht
    obtain ⟨l, hl, hm⟩ := exists_mem_of_mem_last ht
    simp [he l hl] at hm
  refine ⟨htp, h.unblocked, by simpa using htp, fun t => ?_, fun t => ?_, fun _ l hl => ?_⟩
  · simp [h.consumed]
  · rw [hasLeft_snoc, ← h.paused]
    constructor
    · exact .inl
    · rintro (hlf | ⟨⟨l, hl, ht⟩, _⟩)
      · exact hlf
      · simp [he l hl] at ht
  · rcases mem_append.1 hl with hold | hnw
    · exact he l hold
    · exact mem_singleton.1 hnw

theorem Tracks.update {c : SharedConsumer} (hc : p.sharedConsumer = some c) (topics : List GoStr) :
    Tracks (((p.addConsumeTopics (topics.toFinset \ p.sharedTopics)).recordAdded (topics.toFinset \ p.sharedTopics)
      |>.pauseFetchTopics (p.sharedTopics \ topics.toFinset)).recordRemoved (p.sharedTopics \ topics.toFinset))
      (lists ++ [topics]) where
  unblocked := h.unblocked
  topics := by
    ext t
    simp only [Pool.addConsumeTopics, Pool.recordAdded, Pool.pauseFetchTopics, Pool.recordRemoved, h.unblocked,
      getLastD_concat, Finset.mem_sdiff, Finset.mem_union, Finset.notMem_empty]
    tauto
  consumed t := by
    have hold := h.consumed t
    simp only [Pool.consumed, hc, elim_some] at hold
    simp only [Pool.consumed, Pool.addConsumeTopics, Pool.recordAdded, Pool.pauseFetchTopics, Pool.recordRemoved, hc,
      map_some, elim_some, Finset.mem_union, Finset.mem_sdiff, List.mem_toFinset, hold, h.topics,
      mem_append, mem_singleton, or_and_right, exists_or, exists_eq_left]
    constructor
    · rintro (hm | ⟨hn, _⟩)
      · exact .inl hm
      · exact .inr hn
    · rintro (hm | hn)
      · exact .inl hm
      · by_cases hl : t ∈ lists.getLastD []
        · exact .inl (exists_mem_of_mem_last hl)
        · exact .inr ⟨hn, hl⟩
  paused t := by
    have hold := h.paused t
    simp only [Pool.paused, hc, elim_some] at hold
    simp only [Pool.paused, Pool.addConsumeTopics, Pool.recordAdded, Pool.pauseFetchTopics, Pool.recordRemoved, hc,
      map_some, elim_some, Finset.mem_union, Finset.mem_sdiff, List.mem_toFinset, hold, hasLeft_snoc,
      h.topics]
    constructor
    · rintro (hlf | ⟨hl, hn⟩)
      · exact .inl hlf
      · exact .inr ⟨exists_mem_of_mem_last hl, hn⟩
    · rintro (hlf | ⟨hm, hn⟩)
      · exact .inl hlf
      · by_cases hl : t ∈ lists.getLastD []
        · exact .inr ⟨hl, hn⟩
        · exact .inl (hasLeft_of_not_mem_last hm hl)
  waiting := by simp [Pool.addConsumeTopics, Pool.recordAdded, Pool.pauseFetchTopics, Pool.recordRemoved, hc]

/-! ## Runs of refreshes -/

theorem Tracks.updateSharedConsumer {starts : Bool}
    (hq : p.updateSharedConsumer topics starts = (q, none)) : Tracks q (lists ++ [topics]) := by
  have hun : p.unblock topics = p := by
    have hi : p.blockedSharedTopics ∩ topics.toFinset = p.blockedSharedTopics := by simp [h.unblocked]
    rw [Pool.unblock, hi]
  have hp : p.plan topics = ⟨topics.toFinset, topics.toFinset \ p.sharedTopics, p.sharedTopics \ topics.toFinset⟩ := by
    simp [Pool.plan, h.unblocked]
  simp only [Pool.updateSharedConsumer, hun, hp] at hq
  cases hc : p.sharedConsumer with
  | some c =>
    simp only [hc, reduceCtorEq, false_and, if_false, Prod.mk.injEq, and_true] at hq
    exact hq ▸ h.update hc topics
  | none =>
    by_cases he : topics = []
    · -- nothing was ever listed
      subst he
      simp only [hc, toFinset_nil, ne_eq, not_true_eq_false, and_false, if_false, Prod.mk.injEq, and_true] at hq
      obtain ⟨ht, hid⟩ := h.idle hc
      subst hq
      refine hid.congr ?_ ?_ rfl <;>
        simp [Pool.addConsumeTopics, Pool.recordAdded, Pool.pauseFetchTopics, Pool.recordRemoved, hc, ht]
    · have hne : topics.toFinset ≠ ∅ := by simpa using he
      simp only [hne, false_and, and_false, if_false, ne_eq, not_false_eq_true, and_true, if_true, hc] at hq
      cases starts with
      | false => simp at hq
      | true =>
        simp only [if_true, Prod.mk.injEq, and_true] at hq
        exact hq ▸ h.start hc topics

theorem Tracks.refreshed {r : Refresh} (hq : p.refreshed r = some q) : Tracks q (lists ++ [r.shared]) := by
  simp only [Pool.refreshed, Pool.refreshTopics] at hq
  cases hu : p.updateSharedConsumer r.shared r.sharedStarts with
  | mk p₁ err =>
    cases err with
    | some e => simp [hu] at hq
    | none =>
      simp only [hu, Option.some.injEq] at hq
      obtain ⟨hc, ht, hb⟩ := p₁.updateDedicatedConsumers_shared r.dedicated r.dedicatedStarts
      subst hq
      exact (h.updateSharedConsumer hu).congr hc ht hb

end

theorem Tracks.run {rs : List Refresh} : ∀ {p q : Pool} {lists : List (List GoStr)}, Tracks p lists →
    run Pool.refreshed p rs = some q → Tracks q (lists ++ rs.map Refresh.shared) := by
  induction rs with
  | nil =>
    intro p q lists h hrn
    cases hrn
    simpa using h
  | cons r rs ih =>
    intro p q lists h hrn
    obtain ⟨p₁, hr, hrs⟩ := run_cons.1 hrn
    simpa using ih (h.refreshed hr) hrs

theorem Tracks.follows_iff (h : Tracks q (lists ++ [topics])) : q.Follows topics ↔ ∀ t ∈ topics, ¬ HasLeft lists t := by
  have hlf : ∀ t ∈ topics, (HasLeft (lists ++ [topics]) t ↔ HasLeft lists t) := by
    intro t ht
    simp [hasLeft_snoc, ht]
  constructor
  · intro hf t ht hg
    exact (hf.1 t ht).2 ((h.paused t).2 ((hlf t ht).2 hg))
  · intro hn
    refine ⟨fun t ht => ⟨(h.consumed t).2 ⟨topics, by simp, ht⟩, fun hp => ?_⟩, fun t ht => ?_⟩
    · exact hn t ht ((hlf t ht).1 ((h.paused t).1 hp))
    · by_cases hc : t ∈ q.consumed
      · refine .inl ((h.paused t).2 (hasLeft_snoc.2 (.inr ⟨?_, ht⟩)))
        obtain ⟨l, hl, hm⟩ := (h.consumed t).1 hc
        rcases mem_append.1 hl with hold | hnw
        · exact ⟨l, hold, hm⟩
        · exact absurd (mem_singleton.1 hnw ▸ hm) ht
      · exact .inr hc

theorem noReturn_iff : NoReturn lists ↔ ∀ before l after, lists = before ++ l :: after → ∀ t ∈ l, ¬ HasLeft before t := by
  constructor
  · rintro h before l after rfl t ht ⟨l₁, l₂, hs, h₁, h₂⟩
    have htr : [l₁, l₂, l].Sublist (before ++ l :: after) := hs.append ((nil_sublist after).cons_cons l)
    exact h l₁ l₂ l htr t h₁ h₂ ht
  · intro h l₁ l₂ l₃ hs t h₁ h₂ h₃
    obtain ⟨as, bs, rfl, has, hbs⟩ := append_sublist_iff.1 (show ([l₁, l₂] ++ [l₃]).Sublist lists from hs)
    obtain ⟨cs, ds, rfl⟩ := append_of_mem (singleton_sublist.1 hbs)
    exact h (as ++ cs) l₃ ds (by simp) t h₃ ⟨l₁, l₂, has.trans (sublist_append_left as cs), h₁, h₂⟩

/-- **The shared consumer and the registry** agree after every refresh iff no topic ever comes back to the list. -/
theorem sharedTopics_follow_iff (rs : List Refresh) (p : Pool) (hrun : run Pool.refreshed Pool.new rs = some p) :
    (∀ before r after q, rs = before ++ r :: after → run Pool.refreshed Pool.new (before ++ [r]) = some q →
      q.Follows r.shared) ↔ NoReturn (rs.map Refresh.shared) := by
  have hstate : ∀ before r q, run Pool.refreshed Pool.new (before ++ [r]) = some q →
      Tracks q (before.map Refresh.shared ++ [r.shared]) := by
    intro before r q hq
    simpa using Tracks.new.run hq
  rw [noReturn_iff]
  constructor
  · rintro h bs l as hsplit
    obtain ⟨before, rest, rfl, rfl, hrest⟩ := map_eq_append_iff.1 hsplit
    obtain ⟨r, after, rfl, rfl, rfl⟩ := map_eq_cons_iff.1 hrest
    -- the refreshes up to this one have succeeded, as the whole run has
    obtain ⟨q, hq⟩ : ∃ q, run Pool.refreshed Pool.new (before ++ [r]) = some q := by
      rw [← singleton_append, ← append_assoc, run_append] at hrun
      obtain ⟨q, hq, _⟩ := bind_eq_some_iff.1 hrun
      exact ⟨q, hq⟩
    exact (hstate before r q hq).follows_iff.1 (h before r after q rfl hq)
  · rintro h before r after q rfl hq
    exact (hstate before r q hq).follows_iff.2 (h _ r.shared (after.map Refresh.shared) (by simp))

def sharedRefresh (topics : List GoStr) : Refresh := ⟨topics, [], true, fun _ => true⟩

theorem sharedTopics_follow_of_moving :
    ∃ p, run Pool.refreshed Pool.new [sharedRefresh [str "acme"], sharedRefresh [str "acme", str "beta"],
        sharedRefresh [str "beta"]] = some p ∧
      ∀ before r after q, [sharedRefresh [str "acme"], sharedRefresh [str "acme", str "beta"], sharedRefresh [str "beta"]]
        = before ++ r :: after → run Pool.refreshed Pool.new (before ++ [r]) = some q → q.Follows r.shared := by
  obtain ⟨p, hp⟩ : ∃ p, run Pool.refreshed Pool.new [sharedRefresh [str "acme"],
      sharedRefresh [str "acme", str "beta"], sharedRefresh [str "beta"]] = some p :=
    isSome_iff_exists.1 (by decide +kernel)
  refine ⟨p, hp, (sharedTopics_follow_iff _ p hp).2 ?_⟩
  intro l₁ l₂ l₃ hsub t
  have htriple := hsub.eq_of_length rfl
  simp only [sharedRefresh, map_cons, map_nil, List.cons.injEq, and_true] at htriple
  obtain ⟨rfl, rfl, rfl⟩ := htriple
  simp only [mem_cons, not_mem_nil, or_false]
  rintro rfl
  decide

/-- **Bug**: `acme` leaves the list and is listed again; the client has it paused for good. -/
theorem readdedTopic_stays_paused :
    ∃ p, run Pool.refreshed Pool.new [sharedRefresh [str "acme", str "beta"], sharedRefresh [str "beta"],
        sharedRefresh [str "acme", str "beta"]] = some p ∧
      str "acme" ∈ p.sharedTopics ∧ str "acme" ∈ p.paused ∧ ¬ p.Follows [str "acme", str "beta"] := by
  have hends : (run Pool.refreshed Pool.new [sharedRefresh [str "acme", str "beta"], sharedRefresh [str "beta"],
      sharedRefresh [str "acme", str "beta"]]).map (fun p => (p.sharedTopics, p.paused)) =
        some ({str "acme", str "beta"}, {str "acme"}) := by decide +kernel
  obtain ⟨p, hrun, hp⟩ := map_eq_some_iff.1 hends
  obtain ⟨htopics, hpaused⟩ := Prod.mk.inj hp
  have hacme : str "acme" ∈ p.paused := by simp [hpaused]
  exact ⟨p, hrun, by simp [htopics], hacme, fun h => (h.1 (str "acme") (by simp)).2 hacme⟩

end Sukko.Orchestration
