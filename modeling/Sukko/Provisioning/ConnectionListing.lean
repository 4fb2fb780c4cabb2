import Sukko.Server.RegistryEntries
/-
# Listing the connections of a tenant

A member whose hash was not read, because it has expired or because the command failed, is taken for a leftover: a goroutine
removes it from the index later. A call takes one command at a time.

**Valkey boundary**: a command of a listing is answered with what the store has then, or with an error.

**Time boundary**: `parseTime` is `time.Parse(time.RFC3339, …)`.
-/

namespace Sukko.ConnectionListing
open Keyspace Registry

/-! ## Results -/

structure ConnectionFilters where
  apiKeyID : GoStr := []
  channel : GoStr := []
  transport : GoStr := []
  limit : Nat := 50
  offset : Nat := 0
deriving DecidableEq

inductive RegistryStatus
  | current
  | possiblyStale
deriving DecidableEq

structure ConnectionDetail where
  connectionID : GoStr
  tenantID : GoStr
  apiKeyID : GoStr
  userID : GoStr
  podID : GoStr
  shardID : GoStr
  remoteIP : GoStr
  transport : GoStr
  connectedAt : GoStr
  channels : List GoStr
  channelsCapped : Bool
  registryStatus : RegistryStatus
deriving DecidableEq

abbrev Fields := Assoc GoStr GoStr

def field (fields : Fields) (name : String) : GoStr := (Assoc.get fields (str name)).getD []

/-- `json.Unmarshal` into a nil slice of strings. Its error is only logged, so what it leaves counts: an element of
another type is the empty string. -/
def unmarshalChannels (raw : GoStr) : List GoStr :=
  match Json.parse raw with
  | some (.coll .arr es) => es.toList.map fun e => (Json.decodeString e.2 []).getD []
  | _ => []

def hasDrops (s : GoStr) : Bool :=
  match s with
  | [] => false
  | b :: t =>
    let ds := if b = 43 ∨ b = 45 then t else s
    !ds.isEmpty && ds.all GoStr.isDigit && b != 45 && decide (0 < GoStr.digitsVal ds)

def staleThreshold : Time := 2 * (30 * second)

def heartbeatLate (parseTime : GoStr → Option Time) (now : Time) (hf : Fields) : Bool :=
  match parseTime (field hf "last_heartbeat_at") with
  | some t => decide (staleThreshold < now - t)
  | none => false

/-- See `provisioning/api/connections_valkey.go:301`. -/
def deriveStatus (parseTime : GoStr → Option Time) (now : Time) (podID : GoStr) (healthMap : Assoc GoStr Fields) :
    RegistryStatus :=
  match Assoc.get healthMap podID with
  | none => .possiblyStale
  | some hf =>
    if hf = [] ∨ hasDrops (field hf "drops_since_last_flush") = true ∨ field hf "last_heartbeat_at" = [] ∨
        heartbeatLate parseTime now hf = true ∨ field hf "admin_channel_healthy" ≠ str "true" then .possiblyStale
    else .current

/-- See `provisioning/api/connections_valkey.go:269`. -/
def fieldsToDetail (parseTime : GoStr → Option Time) (now : Time) (healthMap : Assoc GoStr Fields) (connID : GoStr)
    (fields : Fields) : ConnectionDetail where
  connectionID := connID
  tenantID := field fields "tenant_id"
  apiKeyID := field fields "api_key_id"
  userID := field fields "user_id"
  podID := field fields "pod_id"
  shardID := field fields "shard_id"
  remoteIP := field fields "remote_ip"
  transport := field fields "transport"
  connectedAt := field fields "connected_at"
  channels := if field fields "channels" = [] then [] else unmarshalChannels (field fields "channels")
  channelsCapped := field fields "channels_capped" = str "1"
  registryStatus := deriveStatus parseTime now (field fields "pod_id") healthMap

def ConnectionFilters.accepts (filters : ConnectionFilters) (detail : ConnectionDetail) : Bool :=
  (filters.transport = [] || detail.transport = filters.transport) && (filters.channel = [] || filters.channel ∈ detail.channels)

def matched (parseTime : GoStr → Option Time) (now : Time) (filters : ConnectionFilters) (healthMap : Assoc GoStr Fields)
    (valid : List (GoStr × Fields)) : List ConnectionDetail :=
  (valid.map fun cv => fieldsToDetail parseTime now healthMap cv.1 cv.2).filter filters.accepts

def ConnectionFilters.page (filters : ConnectionFilters) (all : List ConnectionDetail) : List ConnectionDetail × Nat :=
  if all.length < filters.offset then ([], all.length)
  else ((all.take (min (filters.offset + filters.limit) all.length)).drop filters.offset, all.length)

theorem mem_matched {parseTime : GoStr → Option Time} {now : Time} {filters : ConnectionFilters}
    {he : Assoc GoStr Fields} {valid : List (GoStr × Fields)} {c : GoStr} (ht : filters.transport = [])
    (hc : filters.channel = []) (h : c ∈ valid.map (·.1)) :
    c ∈ (matched parseTime now filters he valid).map (·.connectionID) := by
  obtain ⟨⟨connID, fields⟩, hm, rfl⟩ := List.mem_map.1 h
  refine List.mem_map.2 ⟨fieldsToDetail parseTime now he connID fields, ?_, rfl⟩
  refine List.mem_filter.2 ⟨List.mem_map.2 ⟨_, hm, rfl⟩, ?_⟩
  simp [ConnectionFilters.accepts, ht, hc]

/-! ## Calls -/

structure Query where
  tenantID : GoStr
  filters : ConnectionFilters
deriving DecidableEq

def Query.idxKey (env : GoStr) (q : Query) : GoStr :=
  if q.filters.apiKeyID ≠ [] then apiKeyIdxKey env q.tenantID q.filters.apiKeyID else tenantIdxKey env q.tenantID

inductive Call
  | idle
  | started (q : Query)
  /-- In the `DoMulti` of the `HGETALL`s: the members that are left, the hashes that were read, and the other members. -/
  | hashes (q : Query) (left : List GoStr) (valid : List (GoStr × Fields)) (stale : List GoStr)
  | health (q : Query) (valid : List (GoStr × Fields)) (left : List GoStr) (healthMap : Assoc GoStr Fields)
  | done (q : Query) (result : Option (List ConnectionDetail × Nat))
deriving DecidableEq

inductive CallAct
  | start (q : Query)
  | smembers (order : Option (List GoStr))
  | hgetall (ok : Bool)
  | collect (pods : List GoStr)
  | health (ok : Bool)
  | finish
deriving DecidableEq

def healthLookups (valid : List (GoStr × Fields)) : List GoStr :=
  ((valid.map fun cv => field cv.2 "pod_id").filter (· ≠ [])).dedup

variable {π ρ : Type} (cfg : RegistryConfig π) (parseTime : GoStr → Option Time)

def callStep (db : Db GoStr) (now : Time) : Call → CallAct → Option (Call × List (GoStr × List GoStr))
  | .idle, .start q => some (.started q, [])
  | .started q, .smembers none => some (.done q none, [])
  | .started q, .smembers (some order) =>
    if order.Perm (db.smembers now (q.idxKey cfg.environment)) then
      some (if order = [] then .done q (some ([], 0)) else .hashes q order [] [], [])
    else none
  | .hashes q (connID :: left) valid stale, .hgetall ok =>
    let fields := db.hgetall now (connKey cfg.environment connID)
    -- an error is taken for an expired hash
    if ok = false ∨ fields = [] then some (.hashes q left valid (stale ++ [connID]), [])
    else some (.hashes q left (valid ++ [(connID, fields)]) stale, [])
  | .hashes q [] valid stale, .collect pods =>
    if pods.Perm (healthLookups valid) then
      some (.health q valid pods [], if stale = [] then [] else [(q.idxKey cfg.environment, stale)])
    else none
  | .health q valid (pod :: left) healthMap, .health ok =>
    let fields := db.hgetall now (healthKey cfg.environment pod)
    some (.health q valid left (if ok then Assoc.set healthMap pod fields else healthMap), [])
  | .health q valid [] healthMap, .finish =>
    some (.done q (some (q.filters.page (matched parseTime now q.filters healthMap valid))), [])
  | _, _ => none

/-! ## The system -/

structure State (π ρ : Type) where
  reg : Registry.State π
  calls : ρ → Call
  lazy : List (GoStr × List GoStr)

inductive Act (π ρ : Type)
  | writer (a : Registry.Act π)
  | call (r : ρ) (a : CallAct)
  | srem (e : GoStr × List GoStr) (outcome : Outcome)

variable [DecidableEq π] [DecidableEq ρ]

def step (σ : State π ρ) : Act π ρ → Option (State π ρ)
  | .writer a => (Registry.step cfg σ.reg a).map fun reg => { σ with reg := reg }
  | .call r a =>
    (callStep cfg parseTime σ.reg.db σ.reg.now (σ.calls r) a).map fun (call, spawned) =>
      { σ with calls := Function.update σ.calls r call, lazy := σ.lazy ++ spawned }
  | .srem e outcome =>
    if e ∈ σ.lazy then
      some { σ with
        reg := { σ.reg with db := if outcome = .lost then σ.reg.db else σ.reg.db.exec σ.reg.now (.srem e.1 e.2) },
        lazy := σ.lazy.erase e }
    else none

def init (now : Time) : State π ρ := ⟨Registry.init now, fun _ => .idle, []⟩

/-! ## What a step can do -/

inductive CallMove (cfg : RegistryConfig π) (parseTime : GoStr → Option Time) (db : Db GoStr) (now : Time) :
    Call → CallAct → Call → List (GoStr × List GoStr) → Prop
  | start (q : Query) : CallMove cfg parseTime db now .idle (.start q) (.started q) []
  | error (q : Query) : CallMove cfg parseTime db now (.started q) (.smembers none) (.done q none) []
  | empty (q : Query) (hnil : db.smembers now (q.idxKey cfg.environment) = []) :
      CallMove cfg parseTime db now (.started q) (.smembers (some [])) (.done q (some ([], 0))) []
  | members {q : Query} {order : List GoStr} (hperm : order.Perm (db.smembers now (q.idxKey cfg.environment))) :
      CallMove cfg parseTime db now (.started q) (.smembers (some order)) (.hashes q order [] []) []
  | stale {q : Query} {connID : GoStr} {left stale : List GoStr} {valid : List (GoStr × Fields)} {ok : Bool}
      (hnot : ok = false ∨ db.hgetall now (connKey cfg.environment connID) = []) :
      CallMove cfg parseTime db now (.hashes q (connID :: left) valid stale) (.hgetall ok)
        (.hashes q left valid (stale ++ [connID])) []
  | valid {q : Query} {connID : GoStr} {left stale : List GoStr} {valid : List (GoStr × Fields)} {fields : Fields} :
      CallMove cfg parseTime db now (.hashes q (connID :: left) valid stale) (.hgetall true)
        (.hashes q left (valid ++ [(connID, fields)]) stale) []
  | collect {q : Query} {stale pods : List GoStr} {valid : List (GoStr × Fields)} :
      CallMove cfg parseTime db now (.hashes q [] valid stale) (.collect pods) (.health q valid pods [])
        (if stale = [] then [] else [(q.idxKey cfg.environment, stale)])
  | health {q : Query} {pod : GoStr} {left : List GoStr} {valid : List (GoStr × Fields)} {m m' : Assoc GoStr Fields}
      {ok : Bool} : CallMove cfg parseTime db now (.health q valid (pod :: left) m) (.health ok) (.health q valid left m') []
  | finish {q : Query} {valid : List (GoStr × Fields)} {m : Assoc GoStr Fields} :
      CallMove cfg parseTime db now (.health q valid [] m) .finish
        (.done q (some (q.filters.page (matched parseTime now q.filters m valid)))) []

variable {cfg parseTime}

omit [DecidableEq π] in
theorem callMove_of_callStep {db : Db GoStr} {now : Time} {call call' : Call} {a : CallAct}
    {spawned : List (GoStr × List GoStr)} (h : callStep cfg parseTime db now call a = some (call', spawned)) :
    CallMove cfg parseTime db now call a call' spawned := by
  unfold callStep at h
  split at h
  · cases h
    exact .start _
  · cases h
    exact .error _
  · split at h
    · rename_i hp
      split at h
      · cases h
        subst ‹_ = []›
        exact .empty _ hp.symm.eq_nil
      · cases h
        exact .members hp
    · cases h
  · dsimp only at h
    split at h
    · cases h
      exact .stale ‹_›
    · rename_i hn
      cases h
      obtain ⟨hok, -⟩ := not_or.1 hn
      rw [Bool.not_eq_false] at hok
      subst hok
      exact .valid
  · split at h <;> cases h
    exact .collect
  · cases h
    exact .health
  · cases h
    exact .finish
  · cases h

end Sukko.ConnectionListing
