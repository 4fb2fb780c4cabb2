import Sukko.Provisioning.ConnectionListing
/-
# The listing of all connections

The registry does not change between the pages. A connection stands for its hash; `parseConnectionFilters` lets no limit below
1 through.
-/

namespace Sukko.ConnectionListing.Admin
open Registry List

def indexed (env key : GoStr) (d : ConnectionDetail) : Bool :=
  key = tenantIdxKey env d.tenantID ∨ d.apiKeyID ≠ [] ∧ key = apiKeyIdxKey env d.tenantID d.apiKeyID

/-- The registry that a listing reads, and the tenants of the provisioning database. -/
structure Contents where
  env : GoStr
  details : List ConnectionDetail
  nodup : (details.map ConnectionDetail.connectionID).Nodup
  /-- The names of tenants have no colon (`ValidateSlug`, `provisioning/types.go:161`). -/
  slugs : ∀ d ∈ details, colon ∉ d.tenantID
  smembers : GoStr → List GoStr
  smembers_perm : ∀ key, (smembers key).Perm ((details.filter (indexed env key)).map ConnectionDetail.connectionID)
  tenants : List GoStr
  tenants_nodup : tenants.Nodup
  tenants_slugs : ∀ t ∈ tenants, colon ∉ t

def maxAdminConnectionsPageLimit : ℕ := 1000
def adminListTenantPageSize : ℕ := 500

def ofTenant (filters : ConnectionFilters) : ConnectionFilters where
  channel := filters.channel
  transport := filters.transport
  limit := maxAdminConnectionsPageLimit
  offset := 0

namespace Contents
variable (c : Contents)

def hgetall (connID : GoStr) : Option ConnectionDetail := c.details.find? (·.connectionID = connID)

/-- See `provisioning/api/connections_valkey.go:107`, nothing failing. -/
def listTenantConnections (q : Query) : List ConnectionDetail × ℕ :=
  q.filters.page (((c.smembers (q.idxKey c.env)).filterMap c.hgetall).filter q.filters.accepts)

/-- Models `TenantRepository.List` (`repository/tenant.go:337`), with a limit. -/
def listTenants (limit offset : ℕ) : List GoStr := (c.tenants.drop offset).take limit

def tenantItems (filters : ConnectionFilters) (podID slug : GoStr) : List ConnectionDetail :=
  (c.listTenantConnections ⟨slug, ofTenant filters⟩).1.filter fun d => podID = [] ∨ d.podID = podID

theorem length_listTenants (limit offset : ℕ) : (c.listTenants limit offset).length ≤ c.tenants.length - offset := by
  simp [listTenants]

/-- The loop over the pages of tenants (`api/connections_handler.go:533-568`). -/
def collect (filters : ConnectionFilters) (podID : GoStr) (offset : ℕ) : List ConnectionDetail :=
  if c.listTenants adminListTenantPageSize offset = [] then []
  else (c.listTenants adminListTenantPageSize offset).flatMap (c.tenantItems filters podID) ++
    if (c.listTenants adminListTenantPageSize offset).length < adminListTenantPageSize then []
    else collect filters podID (offset + (c.listTenants adminListTenantPageSize offset).length)
termination_by c.tenants.length - offset
decreasing_by
  have hle := c.length_listTenants adminListTenantPageSize offset
  have hpos : 0 < adminListTenantPageSize := by decide
  omega

/-- See `connections_handler.go:494`. -/
def handleAdminListConnections (tenantID podID : GoStr) (filters : ConnectionFilters) : List ConnectionDetail × ℕ :=
  if tenantID ≠ [] then c.listTenantConnections ⟨tenantID, filters⟩
  else
    let allItems := c.collect filters podID 0
    let last := min (filters.offset + filters.limit) allItems.length
    (if filters.offset < allItems.length then (allItems.take last).drop filters.offset else [], allItems.length)

end Contents

/-- The filters that are given. -/
def satisfies (tenantID podID : GoStr) (filters : ConnectionFilters) (d : ConnectionDetail) : Bool :=
  (tenantID = [] || d.tenantID = tenantID) && (filters.apiKeyID = [] || d.apiKeyID = filters.apiKeyID) &&
    filters.accepts d && (podID = [] || d.podID = podID)

variable {c : Contents} {filters : ConnectionFilters} {podID tenantID : GoStr} {d : ConnectionDetail} {α : Type}

/-! ## One tenant -/

theorem hgetall_of_mem (h : d ∈ c.details) : c.hgetall d.connectionID = some d := by
  obtain ⟨e, he⟩ : ∃ e, c.hgetall d.connectionID = some e :=
    Option.isSome_iff_exists.1 (find?_isSome.2 ⟨d, h, decide_eq_true rfl⟩)
  have hid : e.connectionID = d.connectionID := by simpa [Contents.hgetall] using find?_some he
  rw [he, inj_on_of_nodup_map c.nodup (mem_of_find?_eq_some he) h hid]

theorem filterMap_hgetall (key : GoStr) : ((c.smembers key).filterMap c.hgetall).Perm (c.details.filter (indexed c.env key)) := by
  refine ((c.smembers_perm key).filterMap _).trans (Perm.of_eq ?_)
  rw [filterMap_map]
  have hsome : ∀ d ∈ c.details.filter (indexed c.env key), (c.hgetall ∘ ConnectionDetail.connectionID) d = some d :=
    fun d hd => hgetall_of_mem (mem_of_mem_filter hd)
  rw [filterMap_congr hsome, filterMap_some]

theorem indexed_idxKey (hd : d ∈ c.details) (ht : colon ∉ tenantID) : indexed c.env (Query.idxKey c.env ⟨tenantID, filters⟩) d =
      ((d.tenantID = tenantID && (filters.apiKeyID = [] || d.apiKeyID = filters.apiKeyID)) : Bool) := by
  have hd := c.slugs d hd
  unfold indexed Query.idxKey
  by_cases hk : filters.apiKeyID = []
  · have hne : tenantIdxKey c.env tenantID ≠ apiKeyIdxKey c.env d.tenantID d.apiKeyID := tenantIdxKey_ne_apiKeyIdxKey ht
    simp [hk, hne, tenantIdxKey_inj, eq_comm]
  · have hne : apiKeyIdxKey c.env tenantID filters.apiKeyID ≠ tenantIdxKey c.env d.tenantID :=
      (tenantIdxKey_ne_apiKeyIdxKey hd).symm
    simp only [hk, ne_eq, not_false_eq_true, if_true, hne, false_or, apiKeyIdxKey_inj ht hd]
    simp
    grind

theorem matched_perm (c : Contents) (filters : ConnectionFilters) (ht : colon ∉ tenantID) :
    (((c.smembers (Query.idxKey c.env ⟨tenantID, filters⟩)).filterMap c.hgetall).filter filters.accepts).Perm
      (c.details.filter fun d => d.tenantID = tenantID && (filters.apiKeyID = [] || d.apiKeyID = filters.apiKeyID) &&
        filters.accepts d) := by
  refine ((filterMap_hgetall _).filter _).trans (Perm.of_eq ?_)
  rw [filter_filter]
  refine filter_congr fun d hd => ?_
  rw [indexed_idxKey hd ht, Bool.and_comm]

/-! ## Pages -/

theorem take_min_length (l : List α) (k : ℕ) : l.take (min k l.length) = l.take k := by
  rcases le_total k l.length with h | h
  · rw [min_eq_left h]
  · rw [min_eq_right h, take_length, take_of_length_le h]

theorem page_eq (all : List ConnectionDetail) :
    filters.page all = ((all.take (filters.offset + filters.limit)).drop filters.offset, all.length) := by
  unfold ConnectionFilters.page
  split
  · rename_i h
    rw [drop_eq_nil_of_le ((length_take_le' _ _).trans h.le)]
  · rw [take_min_length]

theorem flatMap_pages (all : List α) (l n : ℕ) :
    ((range n).flatMap fun k => (all.take (k * l + l)).drop (k * l)) = all.take (n * l) := by
  induction n with
  | zero => simp
  | succ n ih =>
    have htake : all.take (n * l) = (all.take (n * l + l)).take (n * l) := by
      rw [take_take, min_eq_left (Nat.le_add_right _ _)]
    rw [range_succ, flatMap_append, ih, flatMap_singleton, htake, take_append_drop, Nat.succ_mul]

/-! ## All tenants -/

theorem collect_eq (offset : ℕ) :
    c.collect filters podID offset = (c.tenants.drop offset).flatMap (c.tenantItems filters podID) := by
  fun_induction Contents.collect c filters podID offset with
  | case1 offset h =>
    have hdrop : c.tenants.drop offset = [] := (take_eq_nil_iff.1 h).resolve_left (by decide)
    rw [hdrop]
    rfl
  | case2 offset h ih =>
    by_cases hlt : (c.listTenants adminListTenantPageSize offset).length < adminListTenantPageSize
    · have hall : c.listTenants adminListTenantPageSize offset = c.tenants.drop offset := by
        refine take_of_length_le ?_
        simp only [Contents.listTenants, length_take] at hlt
        omega
      rw [if_pos hlt, append_nil, hall]
    · have hle : (c.listTenants adminListTenantPageSize offset).length ≤ adminListTenantPageSize := length_take_le _ _
      have hlen : (c.listTenants adminListTenantPageSize offset).length = adminListTenantPageSize := by omega
      rw [if_neg hlt, ih hlt, hlen, ← flatMap_append, ← drop_drop, Contents.listTenants, take_append_drop]

/-- The connections of a tenant that the loop reads: the first 1000 that pass its filters. -/
def Contents.read (c : Contents) (filters : ConnectionFilters) (t : GoStr) : List ConnectionDetail :=
  (((c.smembers (tenantIdxKey c.env t)).filterMap c.hgetall).filter filters.accepts).take maxAdminConnectionsPageLimit

theorem tenantItems_eq (t : GoStr) :
    c.tenantItems filters podID t = (c.read filters t).filter fun d => podID = [] ∨ d.podID = podID := by
  unfold Contents.tenantItems Contents.listTenantConnections
  rw [page_eq, ofTenant, drop_zero, Nat.zero_add]
  rfl

theorem read_perm {t : GoStr} (ht : colon ∉ t) :
    (((c.smembers (tenantIdxKey c.env t)).filterMap c.hgetall).filter filters.accepts).Perm
      (c.details.filter fun d => d.tenantID = t && filters.accepts d) := by
  refine (matched_perm c (ofTenant filters) ht).trans (Perm.of_eq (filter_congr fun d _ => ?_))
  have hsame : (ofTenant filters).accepts d = filters.accepts d := rfl
  rw [hsame]
  simp [ofTenant]

theorem mem_of_mem_read {t : GoStr} (ht : colon ∉ t) (h : d ∈ c.read filters t) :
    d ∈ c.details ∧ d.tenantID = t ∧ filters.accepts d = true := by
  simpa using (read_perm ht).subset (mem_of_mem_take h)

theorem details_nodup (c : Contents) : c.details.Nodup := c.nodup.of_map _

theorem nodup_read {t : GoStr} (ht : colon ∉ t) : (c.read filters t).Nodup :=
  ((read_perm ht).nodup_iff.2 ((details_nodup c).filter _)).sublist (take_sublist _ _)

/-! ## The handler -/

/-- What the pages are cut from. -/
def Contents.listing (c : Contents) (tenantID podID : GoStr) (filters : ConnectionFilters) : List ConnectionDetail :=
  if tenantID ≠ [] then ((c.smembers (Query.idxKey c.env ⟨tenantID, filters⟩)).filterMap c.hgetall).filter filters.accepts
  else c.collect filters podID 0

/-- The handler reads the connection: the index of the query has it; without a tenant, it is one of the first 1000 of a listed
tenant, and its pod is asked for. -/
def Reads (c : Contents) (tenantID podID : GoStr) (filters : ConnectionFilters) (d : ConnectionDetail) : Prop :=
  if tenantID ≠ [] then indexed c.env (Query.idxKey c.env ⟨tenantID, filters⟩) d = true
  else d.tenantID ∈ c.tenants ∧ d ∈ c.read filters d.tenantID ∧ (podID = [] ∨ d.podID = podID)

instance : Decidable (Reads c tenantID podID filters d) := by
  unfold Reads
  infer_instance

/-- Of the connections that pass the filters by channel and transport, the handler reads those that satisfy all filters. -/
def Applied (c : Contents) (tenantID podID : GoStr) (filters : ConnectionFilters) : Prop :=
  ∀ d ∈ c.details, filters.accepts d = true → (Reads c tenantID podID filters d ↔ satisfies tenantID podID filters d = true)

instance : Decidable (Applied c tenantID podID filters) := inferInstanceAs (Decidable (∀ d ∈ _, _))

theorem mem_listing : d ∈ c.listing tenantID podID filters ↔
    d ∈ c.details ∧ filters.accepts d = true ∧ Reads c tenantID podID filters d := by
  unfold Contents.listing Reads
  split
  · rw [((filterMap_hgetall _).filter _).mem_iff, mem_filter, mem_filter]
    tauto
  · rw [collect_eq, drop_zero, mem_flatMap]
    constructor
    · rintro ⟨t, ht, hd⟩
      rw [tenantItems_eq, mem_filter, decide_eq_true_iff] at hd
      obtain ⟨hmem, rfl, hacc⟩ := mem_of_mem_read (c.tenants_slugs t ht) hd.1
      exact ⟨hmem, hacc, ht, hd⟩
    · rintro ⟨-, -, ht, hd⟩
      exact ⟨d.tenantID, ht, by rwa [tenantItems_eq, mem_filter, decide_eq_true_iff]⟩

theorem nodup_listing : (c.listing tenantID podID filters).Nodup := by
  unfold Contents.listing
  split
  · exact ((filterMap_hgetall _).nodup_iff.2 ((details_nodup c).filter _)).filter _
  · rw [collect_eq, drop_zero, nodup_flatMap]
    refine ⟨fun t ht => ?_, c.tenants_nodup.imp_of_mem fun {t u} ht hu hne => ?_⟩
    · rw [tenantItems_eq]
      exact (nodup_read (c.tenants_slugs t ht)).filter _
    · -- a connection belongs to one tenant
      intro d hd hd'
      rw [tenantItems_eq] at hd hd'
      have h₁ := (mem_of_mem_read (c.tenants_slugs t ht) (mem_filter.1 hd).1).2.1
      have h₂ := (mem_of_mem_read (c.tenants_slugs u hu) (mem_filter.1 hd').1).2.1
      exact hne (h₁.symm.trans h₂)

theorem handle_pages (offset : ℕ) : c.handleAdminListConnections tenantID podID { filters with offset := offset } =
    (((c.listing tenantID podID filters).take (offset + filters.limit)).drop offset,
      (c.listing tenantID podID filters).length) := by
  unfold Contents.handleAdminListConnections Contents.listing
  split
  · rw [Contents.listTenantConnections, page_eq]
    rfl
  · have hsame : c.collect { filters with offset := offset } podID 0 = c.collect filters podID 0 := by
      rw [collect_eq, collect_eq]
      rfl
    simp only [hsame, take_min_length]
    split
    · rfl
    · rename_i hlt
      rw [drop_eq_nil_of_le ((length_take_le' _ _).trans (not_lt.1 hlt))]

theorem listing_perm_iff : (c.listing tenantID podID filters).Perm (c.details.filter (satisfies tenantID podID filters)) ↔
    Applied c tenantID podID filters := by
  rw [perm_ext_iff_of_nodup nodup_listing ((details_nodup c).filter _)]
  simp only [mem_listing, mem_filter, and_congr_right_iff]
  refine forall₂_congr fun d _ => ⟨fun h hacc => ?_, fun h => ⟨fun hr => (h hr.1).1 hr.2, fun hs => ?_⟩⟩
  · rw [← h, and_iff_right hacc]
  · have hacc : filters.accepts d = true := by
      simp only [satisfies, Bool.and_eq_true] at hs
      exact hs.1.2
    exact ⟨hacc, (h hacc).2 hs⟩

/-- **The admin listing is exact**, total and pages are the connections that satisfy the filters that are given, each once, just
if the handler reads those connections and no others. -/
theorem admin_listing_exact_iff (c : Contents) (tenantID podID : GoStr) (filters : ConnectionFilters)
    (hlimit : 1 ≤ filters.limit) :
    ((∀ offset, (c.handleAdminListConnections tenantID podID { filters with offset := offset }).2 =
        (c.details.filter (satisfies tenantID podID filters)).length) ∧
      ∀ n, (c.details.filter (satisfies tenantID podID filters)).length ≤ n * filters.limit →
        ((range n).flatMap fun k =>
            (c.handleAdminListConnections tenantID podID { filters with offset := k * filters.limit }).1).Perm
          (c.details.filter (satisfies tenantID podID filters))) ↔
      Applied c tenantID podID filters := by
  simp only [handle_pages, flatMap_pages]
  rw [← listing_perm_iff]
  constructor
  · rintro ⟨htotal, hpages⟩
    have hle := Nat.le_mul_of_pos_right (c.details.filter (satisfies tenantID podID filters)).length hlimit
    have hperm := hpages _ hle
    rwa [take_of_length_le ((htotal 0).trans_le hle)] at hperm
  · intro hperm
    refine ⟨fun _ => hperm.length_eq, fun n hn => ?_⟩
    rw [take_of_length_le (hperm.length_eq.trans_le hn)]
    exact hperm

def detailOf (connID apiKeyID podID : String) : ConnectionDetail where
  connectionID := str connID
  tenantID := str "acme"
  apiKeyID := str apiKeyID
  userID := []
  podID := str podID
  shardID := str "0"
  remoteIP := []
  transport := str "ws"
  connectedAt := []
  channels := []
  channelsCapped := false
  registryStatus := .current

def acme : Contents where
  env := str "prod"
  details := [detailOf "c1" "k1" "pod-a", detailOf "c2" "k2" "pod-b"]
  nodup := by decide
  slugs := by decide
  smembers := fun key => (([detailOf "c1" "k1" "pod-a", detailOf "c2" "k2" "pod-b"] : List ConnectionDetail).filter
    (indexed (str "prod") key)).map ConnectionDetail.connectionID
  smembers_perm := fun _ => Perm.refl _
  tenants := [str "acme"]
  tenants_nodup := by decide
  tenants_slugs := by decide

/-- All connections of a pod, page by page; the tenant's own with an API key. -/
theorem admin_listing_exact_iff_acme :
    (acme.handleAdminListConnections [] (str "pod-b") { limit := 1, offset := 0 }).2 =
      (acme.details.filter (satisfies [] (str "pod-b") { limit := 1 })).length ∧
    (acme.handleAdminListConnections (str "acme") [] { apiKeyID := str "k2", limit := 1, offset := 0 }).2 = 1 :=
  ⟨((admin_listing_exact_iff acme [] (str "pod-b") { limit := 1 } (by decide)).2 (by decide +kernel)).1 0,
    (((admin_listing_exact_iff acme (str "acme") [] { apiKeyID := str "k2", limit := 1 } (by decide)).2
      (by decide +kernel)).1 0).trans (by decide +kernel)⟩

/-- **Bug**: next to a tenant the pod filter is ignored, and without one the filter by API key is. -/
theorem pod_and_apiKey_filters_ignored :
    (acme.handleAdminListConnections (str "acme") (str "pod-a") {}).2 = 2 ∧
    (acme.details.filter (satisfies (str "acme") (str "pod-a") {})).length = 1 ∧
    (acme.handleAdminListConnections [] [] { apiKeyID := str "k2" }).2 = 2 ∧
    (acme.details.filter (satisfies [] [] { apiKeyID := str "k2" })).length = 1 := by
  refine ⟨by decide +kernel, by decide +kernel, ?_, by decide +kernel⟩
  simp only [Contents.handleAdminListConnections, collect_eq]
  decide +kernel

end Sukko.ConnectionListing.Admin
