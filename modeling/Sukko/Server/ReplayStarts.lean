import Sukko.Server.IndexCoherence
import Sukko.Server.Recovery
/-
# Where a replay starts

The start of a partition has to be the lowest of the offsets that its channels ask for (`LeastOf`). The offset after the last
received one is an `int64` sum: after the largest comes the smallest number there is.
-/

namespace Sukko.Server
open GoStr Channels Json List Option

/-! ## The numbers of a position -/

theorem parseInt_lt {s : GoStr} {n : Int} (h : parseInt s = some n) : n < 2 ^ 63 := by
  cases s with
  | nil => cases h
  | cons sign t =>
    simp only [parseInt] at h
    generalize (if sign = 43 ∨ sign = 45 then t else sign :: t) = ds at h
    split at h
    · cases h
    split at h
    · split at h
      · cases h
        omega
      · cases h
    · split at h
      · cases h
        omega
      · cases h

variable {acc : Cursor} {e : GoStr × GoStr} {offset partition next : Int} {pos topic : GoStr} {taken : StrMap} {key : GoStr × Int}
  {new : Nat}

theorem decodePos_lt (h : decodePos pos = some (partition, offset)) : offset < 2 ^ 63 := by
  unfold decodePos at h
  split at h
  · cases h
  split at h
  · cases h
  split at h
  · cases h
  split at h
  · cases h
  rename_i seq hs
  split at h
  · cases h
  · cases h
    exact parseInt_lt hs

/-- The position names the largest offset there is. -/
def LastOffset (pos : GoStr) : Prop := (decodePos pos).map Prod.snd = some (2 ^ 63 - 1)

instance (pos : GoStr) : Decidable (LastOffset pos) := inferInstanceAs (Decidable (_ = _))

theorem next_of_not_last (h : decodePos pos = some (partition, offset)) (hl : ¬ LastOffset pos) :
    wrapInt64 (offset + 1) = offset + 1 := by
  have hn := decodePos_nonneg h
  have hlt := decodePos_lt h
  have hne : offset ≠ 2 ^ 63 - 1 := by
    rintro rfl
    exact hl (by rw [LastOffset, h, map_some])
  unfold wrapInt64
  omega

theorem next_of_last (h : decodePos pos = some (partition, offset)) (hl : LastOffset pos) :
    wrapInt64 (offset + 1) = -2 ^ 63 := by
  rw [LastOffset, h, map_some, Option.some.injEq] at hl
  change offset = _ at hl
  rw [hl]
  decide

/-! ## Least positions -/

def LeastOf (positions : List ((GoStr × Int) × Int)) (asked : GoStr × Int → Set Int) : Prop :=
  ∀ key, (∀ start, positions.lookup key = some start → IsLeast (asked key) start) ∧
    (positions.lookup key = none → asked key = ∅)

theorem leastOf_nil : LeastOf [] fun _ => ∅ := fun key => ⟨fun start h => (by cases h), fun _ => rfl⟩

theorem LeastOf.lower {positions : List ((GoStr × Int) × Int)} {asked asked' : GoStr × Int → Set Int}
    (h : LeastOf positions asked) (hky : asked' key = insert next (asked key))
    (ho : ∀ key', key' ≠ key → asked' key' = asked key') : LeastOf (lowerPosition positions key next) asked' := by
  intro key'
  by_cases hk : key' = key
  · rw [hk, hky, lookup_lowerPosition, if_pos rfl]
    refine ⟨fun start hs => ?_, fun hn => (by cases hn)⟩
    cases hl : positions.lookup key with
    | none =>
      rw [hl, map_none, getD_none, Option.some.injEq] at hs
      rw [(h key).2 hl, ← hs, insert_empty_eq]
      exact isLeast_singleton
    | some existing =>
      rw [hl, map_some, getD_some, Option.some.injEq] at hs
      rw [← hs]
      exact ((h key).1 existing hl).insert next
  · rw [ho key' hk, lookup_lowerPosition, if_neg hk]
    exact h key'

/-! ## The loop -/

section Loop
variable (cfg : Config) (b : Backend) (c : Session)

def Eligible (e : GoStr × GoStr) : Prop :=
  validateChannelTenant e.1 c.tenantID = true ∧ (decodePos e.2).isSome = true ∧ (b.channelTopic e.1).isSome = true

instance (e : GoStr × GoStr) : Decidable (Eligible b c e) := inferInstanceAs (Decidable (_ ∧ _))

/-- How many new channels a list asks for. -/
def fresh (before : StrMap) : Nat := before.countP fun e => Eligible b c e ∧ c.subscriptions.has e.1 = false

/-- The channel is subscribed already, or there is room for it after those before it. -/
def Room (before : StrMap) (e : GoStr × GoStr) : Prop :=
  c.subscriptions.has e.1 = true ∨ (c.subscriptions.count + fresh b c before : Int) < cfg.maxChannelsPerClient

def AsksAt (e : GoStr × GoStr) (key : GoStr × Int) (offset : Int) : Prop :=
  decodePos e.2 = some (key.2, offset) ∧ b.channelTopic e.1 = some key.1

def newOf (channels : List GoStr) : List GoStr := channels.filter fun ch => !c.subscriptions.has ch

theorem length_newOf_singleton (ch : GoStr) : (newOf c [ch]).length = if c.subscriptions.has ch then 0 else 1 := by
  cases hk : c.subscriptions.has ch <;> simp [newOf, hk]

def Full (acc : Cursor) : Prop := cfg.maxChannelsPerClient ≤ c.subscriptions.count + acc.newChannels

def nextOffsets (taken : StrMap) (key : GoStr × Int) : Set Int :=
  {next | ∃ e ∈ taken, ∃ offset, AsksAt b e key offset ∧ next = wrapInt64 (offset + 1)}

structure Progress (seen taken : StrMap) (acc : Cursor) : Prop where
  sub : taken.Sublist seen
  authorized : acc.authorized = taken.map Prod.fst
  least : LeastOf acc.positions (nextOffsets b taken)
  eligible : ∀ e ∈ taken, Eligible b c e
  counted : acc.newChannels = (newOf c acc.authorized).length
  fits : acc.newChannels = 0 ∨ (c.subscriptions.count + acc.newChannels : Int) ≤ cfg.maxChannelsPerClient
  skipped : ∀ e ∈ seen, Eligible b c e → e ∈ taken ∨ (c.subscriptions.has e.1 = false ∧ Full cfg c acc)
  room : ∀ e ∈ taken, ∃ before after, seen = before ++ e :: after ∧ Room cfg b c before e
  fresh : acc.newChannels = fresh b c seen ∨ Full cfg c acc ∧ acc.newChannels ≤ fresh b c seen

variable {cfg b c}

theorem fresh_append_singleton (before : StrMap) :
    fresh b c (before ++ [e]) = fresh b c before + if Eligible b c e ∧ c.subscriptions.has e.1 = false then 1 else 0 := by
  simp [fresh, countP_append, countP_cons]

theorem progress_empty : Progress cfg b c [] [] .empty where
  sub := .slnil
  authorized := rfl
  least := by
    have hn : nextOffsets b [] = fun _ => ∅ := by
      funext key
      simp [nextOffsets]
    rw [hn]
    exact leastOf_nil
  eligible := fun e he => absurd he not_mem_nil
  counted := rfl
  fits := .inl rfl
  skipped := fun e he => absurd he not_mem_nil
  room := fun e he => absurd he not_mem_nil
  fresh := .inl rfl

theorem authorizeEntry_of_not_eligible (h : ¬ Eligible b c e) : authorizeEntry cfg b c acc e = acc := by
  rcases authorizeEntry_cases cfg b c acc e with he | ⟨⟨htn, hp, ht, -⟩, -⟩
  · exact he
  · exact absurd ⟨htn, hp, ht⟩ h

theorem authorizeEntry_of_eligible (cfg : Config) (acc : Cursor) (h : Eligible b c e) :
    ∃ topic partition offset, AsksAt b e (topic, partition) offset ∧ authorizeEntry cfg b c acc e =
      if c.subscriptions.has e.1 then acc.add e.1 topic partition offset 0
      else if cfg.maxChannelsPerClient ≤ c.subscriptions.count + acc.newChannels then acc
      else acc.add e.1 topic partition offset 1 := by
  obtain ⟨channel, posStr⟩ := e
  obtain ⟨htn, hp, ht⟩ := h
  obtain ⟨⟨partition, offset⟩, hp⟩ := isSome_iff_exists.1 hp
  obtain ⟨topic, ht⟩ := isSome_iff_exists.1 ht
  dsimp only at htn hp ht
  refine ⟨topic, partition, offset, ⟨hp, ht⟩, ?_⟩
  simp only [authorizeEntry, htn, hp, ht, Bool.not_true, Bool.false_eq_true, if_false]

theorem mem_nextOffsets_append : next ∈ nextOffsets b (taken ++ [e]) key ↔
    next ∈ nextOffsets b taken key ∨ ∃ offset, AsksAt b e key offset ∧ next = wrapInt64 (offset + 1) := by
  simp [nextOffsets, or_and_right, exists_or]

theorem leastOf_add (h : LeastOf acc.positions (nextOffsets b taken)) (ha : AsksAt b e (topic, partition) offset) :
    LeastOf (acc.add e.1 topic partition offset new).positions (nextOffsets b (taken ++ [e])) := by
  obtain ⟨hps, ht⟩ := ha
  refine h.lower ?_ ?_
  · ext next
    rw [mem_nextOffsets_append, Set.mem_insert_iff, or_comm]
    refine or_congr_left ⟨?_, ?_⟩
    · rintro ⟨offset', ⟨hp, -⟩, rfl⟩
      cases hps.symm.trans hp
      rfl
    · rintro rfl
      exact ⟨offset, ⟨hps, ht⟩, rfl⟩
  · rintro ⟨topic', partition'⟩ hk
    ext next
    rw [mem_nextOffsets_append, or_iff_left]
    rintro ⟨offset', ⟨hp, htp⟩, -⟩
    cases hps.symm.trans hp
    cases ht.symm.trans htp
    exact hk rfl

variable {seen : StrMap}

section
variable (h : Progress cfg b c seen taken acc)
include h

theorem Progress.room_append : ∀ e' ∈ taken, ∃ before after, seen ++ [e] = before ++ e' :: after ∧ Room cfg b c before e' := by
  intro e' he'
  obtain ⟨before, after, rfl, hr⟩ := h.room e' he'
  exact ⟨before, after ++ [e], by simp, hr⟩

/-- Before the loop comes to an entry, the cap is reached just if the entries before it fill it. -/
theorem Progress.full_iff : Full cfg c acc ↔ cfg.maxChannelsPerClient ≤ c.subscriptions.count + Server.fresh b c seen := by
  have hfr := h.fresh
  simp only [Full] at hfr ⊢
  omega

theorem Progress.skip
    (hs : Eligible b c e → c.subscriptions.has e.1 = false ∧ Full cfg c acc) : Progress cfg b c (seen ++ [e]) taken acc where
  sub := h.sub.trans (List.sublist_append_left _ _)
  authorized := h.authorized
  least := h.least
  eligible := h.eligible
  counted := h.counted
  fits := h.fits
  skipped := forall_mem_append.2 ⟨h.skipped, forall_mem_singleton.2 fun he => .inr (hs he)⟩
  room := h.room_append
  fresh := by
    have hfr := h.fresh
    rw [fresh_append_singleton]
    split
    · rename_i hc
      have hf := (hs hc.1).2
      exact .inr ⟨hf, by omega⟩
    · simpa using hfr

theorem Progress.take (hel : Eligible b c e) (ha : AsksAt b e (topic, partition) offset) (hn : new = (newOf c [e.1]).length)
    (hr : new = 0 ∨ (c.subscriptions.count + acc.newChannels + new : Int) ≤ cfg.maxChannelsPerClient) :
    Progress cfg b c (seen ++ [e]) (taken ++ [e]) (acc.add e.1 topic partition offset new) where
  sub := h.sub.append (List.Sublist.refl _)
  authorized := by simp [Cursor.add, h.authorized]
  least := leastOf_add h.least ha
  eligible := forall_mem_append.2 ⟨h.eligible, forall_mem_singleton.2 hel⟩
  counted := by
    rw [Cursor.add, hn, h.counted]
    simp only [newOf, filter_append, length_append]
  fits := by
    have hft := h.fits
    simp only [Cursor.add]
    push_cast
    omega
  skipped := by
    intro e' he' he
    rcases mem_append.1 he' with he' | he'
    · rcases h.skipped e' he' he with ht | ⟨hh, hf⟩
      · exact .inl (mem_append_left _ ht)
      · refine .inr ⟨hh, ?_⟩
        simp only [Full, Cursor.add] at hf ⊢
        push_cast
        omega
    · exact .inl (mem_append_right _ he')
  room := by
    refine forall_mem_append.2 ⟨h.room_append, forall_mem_singleton.2 ⟨seen, [], rfl, ?_⟩⟩
    have hf := mt h.full_iff.2
    simp only [Full, Room] at hf ⊢
    rw [length_newOf_singleton] at hn
    split at hn
    · rename_i hk
      exact .inl hk
    · omega
  fresh := by
    have hfr := h.fresh
    rw [fresh_append_singleton]
    rw [length_newOf_singleton] at hn
    simp only [Full, Cursor.add] at hfr ⊢
    push_cast
    split at hn
    · rename_i hk
      rw [if_neg fun hc => by simp [hk] at hc]
      omega
    · rename_i hk
      rw [if_pos ⟨hel, by simpa using hk⟩]
      omega

theorem Progress.step (e : GoStr × GoStr) : ∃ taken', Progress cfg b c (seen ++ [e]) taken' (authorizeEntry cfg b c acc e) := by
  by_cases he : Eligible b c e
  · obtain ⟨topic, partition, offset, ha, heq⟩ := authorizeEntry_of_eligible cfg acc he
    rw [heq]
    by_cases hh : c.subscriptions.has e.1 = true
    · rw [if_pos hh]
      exact ⟨_, h.take he ha (by simp [newOf, hh]) (.inl rfl)⟩
    · rw [if_neg hh]
      by_cases hf : cfg.maxChannelsPerClient ≤ c.subscriptions.count + acc.newChannels
      · rw [if_pos hf]
        exact ⟨_, h.skip fun _ => ⟨by simpa using hh, hf⟩⟩
      · rw [if_neg hf]
        exact ⟨_, h.take he ha (by simp [newOf, hh]) (.inr (by push_cast; omega))⟩
  · rw [authorizeEntry_of_not_eligible he]
    exact ⟨_, h.skip fun h' => absurd h' he⟩

end

theorem authorizeLastPos_progress (cfg : Config) (b : Backend) (c : Session) (lastPos : StrMap) :
    ∃ taken, Progress cfg b c lastPos taken (authorizeLastPos cfg b c lastPos) := by
  have hr : ∀ (rest seen taken : StrMap) (acc : Cursor), Progress cfg b c seen taken acc →
      ∃ taken', Progress cfg b c (seen ++ rest) taken' (rest.foldl (authorizeEntry cfg b c) acc) := by
    intro rest
    induction rest with
    | nil =>
      intro seen taken acc h
      exact ⟨taken, by rwa [append_nil]⟩
    | cons e rest ih =>
      intro seen taken acc h
      obtain ⟨taken', h'⟩ := h.step e
      obtain ⟨taken'', h''⟩ := ih (seen ++ [e]) taken' _ h'
      exact ⟨taken'', by simpa using h''⟩
  exact hr lastPos [] [] .empty progress_empty

end Loop

/-! ## The starts -/

section Starts
variable (cfg : Config) (b : Backend) (c : Session) (lastPos : StrMap)

def wantedOffsets (authorized : List GoStr) (key : GoStr × Int) : Set Int :=
  {next | ∃ e ∈ lastPos, e.1 ∈ authorized ∧ ∃ offset, AsksAt b e key offset ∧ next = offset + 1}

structure ExactStarts (cursor : Cursor) : Prop where
  least : LeastOf cursor.positions (wantedOffsets b lastPos cursor.authorized)
  positive : ∀ key start, cursor.positions.lookup key = some start → 1 ≤ start
  authorized : ∀ ch ∈ cursor.authorized, ∃ e ∈ lastPos, e.1 = ch ∧ Eligible b c e
  skipped : ∀ e ∈ lastPos, Eligible b c e → e.1 ∉ cursor.authorized →
    c.subscriptions.has e.1 = false ∧
      cfg.maxChannelsPerClient ≤ c.subscriptions.count + (newOf c cursor.authorized).length
  fits : (c.subscriptions.count + (newOf c cursor.authorized).length : Int) ≤ cfg.maxChannelsPerClient

variable {cfg b c lastPos}

section
variable (h : Progress cfg b c lastPos taken acc)
include h

theorem Progress.mem_taken (hk : (lastPos.map Prod.fst).Nodup) (he : e ∈ lastPos) (ha : e.1 ∈ acc.authorized) : e ∈ taken := by
  rw [h.authorized] at ha
  obtain ⟨e', he', hf⟩ := mem_map.1 ha
  rwa [← inj_on_of_nodup_map hk (h.sub.subset he') he hf]

theorem Progress.mem_authorized (he : e ∈ taken) : e.1 ∈ acc.authorized := by
  rw [h.authorized]
  exact mem_map_of_mem he

theorem Progress.nextOffsets_eq (hk : (lastPos.map Prod.fst).Nodup)
    (hl : ∀ e ∈ lastPos, e.1 ∈ acc.authorized → ¬ LastOffset e.2) :
    nextOffsets b taken = wantedOffsets b lastPos acc.authorized := by
  funext key
  ext next
  constructor
  · rintro ⟨e, he, offset, ha, rfl⟩
    have hm := h.sub.subset he
    have hat := h.mem_authorized he
    exact ⟨e, hm, hat, offset, ha, next_of_not_last ha.1 (hl e hm hat)⟩
  · rintro ⟨e, he, hat, offset, ha, rfl⟩
    exact ⟨e, h.mem_taken hk he hat, offset, ha, (next_of_not_last ha.1 (hl e he hat)).symm⟩

theorem Progress.positive (hl : ∀ e ∈ lastPos, e.1 ∈ acc.authorized → ¬ LastOffset e.2) {start : Int}
    (hlk : acc.positions.lookup key = some start) : 1 ≤ start := by
  obtain ⟨e, he, offset, ha, rfl⟩ := ((h.least key).1 start hlk).1
  rw [next_of_not_last ha.1 (hl e (h.sub.subset he) (h.mem_authorized he))]
  have := decodePos_nonneg ha.1
  omega

theorem Progress.start_of_last (he : e ∈ taken) (hlt : LastOffset e.2) :
    ∃ key start, acc.positions.lookup key = some start ∧ start ≤ -2 ^ 63 := by
  obtain ⟨-, hp, ht⟩ := h.eligible e he
  obtain ⟨⟨partition, offset⟩, hp⟩ := isSome_iff_exists.1 hp
  obtain ⟨topic, ht⟩ := isSome_iff_exists.1 ht
  have ha : wrapInt64 (offset + 1) ∈ nextOffsets b taken (topic, partition) := ⟨e, he, offset, ⟨hp, ht⟩, rfl⟩
  rw [next_of_last hp hlt] at ha
  obtain ⟨hls, hn⟩ := h.least (topic, partition)
  cases hl : acc.positions.lookup (topic, partition) with
  | none =>
    rw [hn hl] at ha
    exact absurd ha (Set.notMem_empty _)
  | some start => exact ⟨_, start, hl, (hls start hl).2 ha⟩

end

theorem authorized_authorizeEntry (acc : Cursor) : acc.authorized ⊆ (authorizeEntry cfg b c acc e).authorized := by
  rcases authorizeEntry_cases cfg b c acc e with he | ⟨-, topic, partition, offset, new, -, -, he⟩
  · rw [he]
    exact Subset.refl _
  · rw [he, Cursor.add]
    exact subset_append_left _ _

/-- An eligible channel with room is authorized when the loop comes to it, and stays so. -/
theorem mem_authorized_of_room {before after : StrMap} (helig : Eligible b c e) (hroom : Room cfg b c before e) :
    e.1 ∈ (authorizeLastPos cfg b c (before ++ e :: after)).authorized := by
  obtain ⟨taken, h⟩ := authorizeLastPos_progress cfg b c before
  rw [authorizeLastPos, foldl_append, foldl_cons]
  have hnow : e.1 ∈ (authorizeEntry cfg b c (authorizeLastPos cfg b c before) e).authorized := by
    obtain ⟨topic, partition, offset, -, heq⟩ := authorizeEntry_of_eligible cfg (authorizeLastPos cfg b c before) helig
    rw [heq]
    by_cases hk : c.subscriptions.has e.1 = true
    · rw [if_pos hk]
      exact mem_append_right _ mem_cons_self
    · have hfull := mt h.full_iff.1 (not_le.2 (hroom.resolve_left hk))
      rw [Full] at hfull
      rw [if_neg hk, if_neg hfull]
      exact mem_append_right _ mem_cons_self
  rw [authorizeLastPos] at hnow
  generalize authorizeEntry cfg b c _ e = acc at hnow
  clear h helig hroom
  induction after generalizing acc with
  | nil => exact hnow
  | cons e' after ih => exact ih _ (authorized_authorizeEntry acc hnow)

/-- **The replay starts where its channels go on** exactly when no eligible channel that is subscribed already, or for which the
channels before it in the order of the map leave room, stands at the largest offset, and the client is not above its cap. -/
theorem exactStarts_iff (cfg : Config) (b : Backend) (c : Session) (lastPos : StrMap) (hkeys : (lastPos.map Prod.fst).Nodup) :
    ExactStarts cfg b c lastPos (authorizeLastPos cfg b c lastPos) ↔
      (∀ before e after, lastPos = before ++ e :: after → Eligible b c e → Room cfg b c before e → ¬ LastOffset e.2) ∧
        (c.subscriptions.count : Int) ≤ cfg.maxChannelsPerClient := by
  obtain ⟨taken, h⟩ := authorizeLastPos_progress cfg b c lastPos
  constructor
  · intro hexact
    refine ⟨fun before e after heq helig hroom hlast => ?_, ?_⟩
    · have he : e ∈ lastPos := heq ▸ by simp
      have hauth : e.1 ∈ (authorizeLastPos cfg b c lastPos).authorized := heq ▸ mem_authorized_of_room helig hroom
      obtain ⟨key, start, hlook, hle⟩ := h.start_of_last (h.mem_taken hkeys he hauth) hlast
      have := hexact.positive key start hlook
      omega
    · have := hexact.fits
      omega
  · rintro ⟨hroom, hcap⟩
    have hlast : ∀ e ∈ lastPos, e.1 ∈ (authorizeLastPos cfg b c lastPos).authorized → ¬ LastOffset e.2 := by
      intro e he hauth
      have htaken := h.mem_taken hkeys he hauth
      obtain ⟨before, after, heq, hr⟩ := h.room e htaken
      exact hroom before e after heq (h.eligible e htaken) hr
    refine ⟨?_, fun key start hlook => h.positive hlast hlook, ?_, ?_, ?_⟩
    · rw [← h.nextOffsets_eq hkeys hlast]
      exact h.least
    · intro ch hch
      rw [h.authorized] at hch
      obtain ⟨e, he, rfl⟩ := mem_map.1 hch
      exact ⟨e, h.sub.subset he, rfl, h.eligible e he⟩
    · intro e he helig hnot
      rw [← h.counted]
      exact (h.skipped e he helig).resolve_left fun htaken => hnot (h.mem_authorized htaken)
    · rw [← h.counted]
      rcases h.fits with hzero | hfits
      · omega
      · exact hfits

def newsCursor : StrMap := [(str "acme.news", str "1-5"), (str "acme.sport", str "1-3")]

theorem newsCursor_not_last : ∀ e ∈ newsCursor, ¬ LastOffset e.2 := by decide +kernel

theorem exactStarts_iff_newsCursor :
    (authorizeLastPos newsServer newsBackend newsClient newsCursor).positions = [((Kafka.acmeTopic, 0), 4)] ∧
      ExactStarts newsServer newsBackend newsClient newsCursor
        (authorizeLastPos newsServer newsBackend newsClient newsCursor) :=
  ⟨by decide +kernel,
    (exactStarts_iff newsServer newsBackend newsClient newsCursor (by decide)).2
      ⟨fun before e after h _ _ => newsCursor_not_last e (h ▸ by simp), by decide⟩⟩

/-- **Bug**: one more than the largest offset is the smallest `int64`. The other channel of the partition asked to go on at 4. -/
theorem largest_offset_restarts : (authorizeLastPos newsServer newsBackend newsClient
        [(str "acme.news", str "1-9223372036854775807"), (str "acme.sport", str "1-3")]).positions =
        [((Kafka.acmeTopic, 0), -9223372036854775808)] ∧
      ¬ ExactStarts newsServer newsBackend newsClient
        [(str "acme.news", str "1-9223372036854775807"), (str "acme.sport", str "1-3")]
        (authorizeLastPos newsServer newsBackend newsClient
          [(str "acme.news", str "1-9223372036854775807"), (str "acme.sport", str "1-3")]) := by
  have hpos : (authorizeLastPos newsServer newsBackend newsClient
      [(str "acme.news", str "1-9223372036854775807"), (str "acme.sport", str "1-3")]).positions =
      [((Kafka.acmeTopic, 0), -9223372036854775808)] := by decide +kernel
  refine ⟨hpos, fun hexact => ?_⟩
  have hle := hexact.positive (Kafka.acmeTopic, 0) (-9223372036854775808) (by rw [hpos]; decide +kernel)
  omega

end Starts
end Sukko.Server
