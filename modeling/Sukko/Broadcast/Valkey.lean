import Mathlib.Data.List.AList
import Sukko.Lib.GoString
import Sukko.Lib.Steps
/-
# The Valkey broadcast bus: desired and confirmed subscriptions

Callers only declare what the pod wants; one goroutine makes the connection match. Each locked section, each signal and each
command of a pass is a step. Generations are natural numbers: the 64-bit counters would need 2^64 changes to wrap.
-/

namespace Sukko.Broadcast

abbrev Chan := Nat

inductive Scope where
  | tenant (tenantID : GoStr)
  | all
deriving DecidableEq

inductive BusError where
  | emptyTenantID | invalidTenantID | subscriberNotFound
deriving DecidableEq

inductive Caller where
  | counting (sc : Scope) (ch : Chan)
  | uncounting (sc : Scope)
  | signalling (ch : Option Chan)
deriving DecidableEq

def Caller.chan : Caller → Option Chan
  | .counting _ ch => some ch
  | .uncounting _ => none
  | .signalling ch => ch

/-- Outcome of one subscription command: `serverError` is an error reply (`*valkey.ValkeyError`),
`transportError` anything else. -/
inductive Answer where
  | ok | serverError | transportError
deriving DecidableEq

inductive Stage where
  | missing (todo : Finset GoStr)
  | stale (todo : Finset GoStr)
  | psubscribe
  | punsubscribe
  | finish
deriving DecidableEq

structure Pass where
  gen : Nat
  desired : Finset GoStr
  wantAll : Bool
  ok : Bool
  abort : Bool
  stage : Stage
deriving DecidableEq

def Pass.handleFailure (p : Pass) : Answer → Pass
  | .ok => p
  | .serverError => { p with ok := false }
  | .transportError => { p with ok := false, abort := true }

inductive Loop where
  | idle
  | top
  | select
  | converge
  | pass (p : Pass)
  | stopped
deriving DecidableEq

def Loop.pass? : Loop → Option Pass
  | .pass p => some p
  | _ => none

@[simp] theorem Loop.pass?_eq_some {l : Loop} {p : Pass} : l.pass? = some p ↔ l = .pass p := by
  cases l <;> simp [pass?]

def retryInitialBackoff : Nat := 100
def retryMaxBackoff : Nat := 5000

structure Bus where
  tenantSubscribers : GoStr → List Chan
  allSubscribers : List Chan
  subRefCounts : AList fun _ : GoStr => Int
  subscribeAllRefCount : Int
  desiredGen : Nat
  subWake : Bool
  confirmedTenants : Finset GoStr
  confirmedAll : Bool
  confirmedGen : Nat
  establishedCount : Nat
  cancelled : Bool
  chans : Nat
  callers : List Caller
  loop : Loop
  retry : Option Nat
  backoff : Nat

namespace Bus

def init : Bus where
  tenantSubscribers := fun _ => []
  allSubscribers := []
  subRefCounts := ∅
  subscribeAllRefCount := 0
  desiredGen := 0
  subWake := false
  confirmedTenants := ∅
  confirmedAll := false
  confirmedGen := 0
  establishedCount := 0
  cancelled := false
  chans := 0
  callers := []
  loop := .idle
  retry := none
  backoff := retryInitialBackoff

def entries (b : Bus) : Scope → List Chan
  | .tenant t => b.tenantSubscribers t
  | .all => b.allSubscribers

def setEntries (b : Bus) (sc : Scope) (chs : List Chan) : Bus :=
  match sc with
  | .tenant t => { b with tenantSubscribers := Function.update b.tenantSubscribers t chs }
  | .all => { b with allSubscribers := chs }

def refCount (b : Bus) : Scope → Int
  | .tenant t => (b.subRefCounts.lookup t).getD 0
  | .all => b.subscribeAllRefCount

/-! ### Callers -/

def openCall (b : Bus) (sc : Scope) : Bus :=
  { b.setEntries sc (b.entries sc ++ [b.chans]) with
    chans := b.chans + 1, callers := .counting sc b.chans :: b.callers }

def closeCall (b : Bus) (sc : Scope) (ch : Chan) : Except BusError Bus :=
  if ch ∈ b.entries sc then
    .ok { b.setEntries sc ((b.entries sc).erase ch) with callers := .uncounting sc :: b.callers }
  else .error .subscriberNotFound

def valkeyChannelSeparator : UInt8 := 58

/-- See `server/broadcast/valkey.go:410`. -/
def subscribe (b : Bus) (tenantID : GoStr) : Except BusError Bus :=
  if tenantID = [] then .error .emptyTenantID
  else if valkeyChannelSeparator ∈ tenantID then .error .invalidTenantID
  else .ok (b.openCall (.tenant tenantID))

def subscribeAll (b : Bus) : Bus := b.openCall .all
def unsubscribe (b : Bus) (tenantID : GoStr) (ch : Chan) : Except BusError Bus := b.closeCall (.tenant tenantID) ch
def unsubscribeAll (b : Bus) (ch : Chan) : Except BusError Bus := b.closeCall .all ch

def addRef (b : Bus) (sc : Scope) : Bus :=
  match sc with
  | .tenant t => { b with subRefCounts := b.subRefCounts.insert t (b.refCount sc + 1) }
  | .all => { b with subscribeAllRefCount := b.subscribeAllRefCount + 1 }

def dropRef (b : Bus) (sc : Scope) : Bus :=
  match sc with
  | .tenant t =>
    { b with
      subRefCounts :=
        if b.refCount sc - 1 = 0 then b.subRefCounts.erase t
        else b.subRefCounts.insert t (b.refCount sc - 1) }
  | .all => { b with subscribeAllRefCount := b.subscribeAllRefCount - 1 }

def noteDesiredChangedLocked (b : Bus) : Bus := { b with desiredGen := b.desiredGen + 1 }
def signalSubscriptionChange (b : Bus) : Bus := { b with subWake := true }

/-- The end of a `subRefMu` section: the call goes on to its signal if the desired set changed
(`isFirst`, `isLast`), else it returns. -/
def leaveRefSection (b : Bus) (changed : Bool) (ch : Option Chan) : Bus :=
  if changed then { b.noteDesiredChangedLocked with callers := .signalling ch :: b.callers } else b

def resume (b : Bus) (c : Caller) : Bus :=
  let b := { b with callers := b.callers.erase c }
  match c with
  | .counting sc ch => (b.addRef sc).leaveRefSection ((b.addRef sc).refCount sc = 1) (some ch)
  | .uncounting sc => (b.dropRef sc).leaveRefSection ((b.dropRef sc).refCount sc = 0) none
  | .signalling _ => b.signalSubscriptionChange

def returned (b : Bus) (ch : Chan) : Bool := b.callers.all fun c => c.chan ≠ some ch

/-! ### The management loop -/

def updateEstablished (b : Bus) : Bus :=
  { b with establishedCount := b.confirmedTenants.card + if b.confirmedAll then 1 else 0 }

/-- See `server/broadcast/valkey.go:642`. -/
def reinitDedicatedClient (b : Bus) : Bus :=
  let b := { b with confirmedTenants := ∅, confirmedAll := false }.updateEstablished
  { b with desiredGen := b.desiredGen + 1 }

def desired (b : Bus) : Finset GoStr := b.subRefCounts.keys.toFinset
def wantAll (b : Bus) : Bool := decide (0 < b.subscribeAllRefCount)

/-- Part of `converge` (`server/broadcast/valkey.go:765`). -/
def snapshot (b : Bus) : Pass where
  gen := b.desiredGen
  desired := b.desired
  wantAll := b.wantAll
  ok := true
  abort := false
  stage := .missing b.desired

def visitMissing (b : Bus) (p : Pass) (todo : Finset GoStr) (t : GoStr) (ans : Answer) : Bus :=
  if t ∈ b.confirmedTenants then { b with loop := .pass { p with stage := .missing (todo.erase t) } }
  else
    { b with
      confirmedTenants := if ans = .ok then insert t b.confirmedTenants else b.confirmedTenants
      loop := .pass { p.handleFailure ans with stage := .missing (todo.erase t) } }

def visitStale (b : Bus) (p : Pass) (todo : Finset GoStr) (t : GoStr) (ans : Answer) : Bus :=
  if t ∈ p.desired then { b with loop := .pass { p with stage := .stale (todo.erase t) } }
  else
    { b with
      confirmedTenants := if ans = .ok then b.confirmedTenants.erase t else b.confirmedTenants
      loop := .pass { p.handleFailure ans with stage := .stale (todo.erase t) } }

def visit (b : Bus) (p : Pass) (t : GoStr) (ans : Answer) : Option Bus :=
  if p.abort || b.cancelled then none
  else
    match p.stage with
    | .missing todo => if t ∈ todo then some (b.visitMissing p todo t ans) else none
    | .stale todo => if t ∈ todo then some (b.visitStale p todo t ans) else none
    | _ => none

def leave (b : Bus) (p : Pass) : Option Bus :=
  match p.stage with
  | .missing todo =>
    if todo = ∅ ∨ p.abort = true ∨ b.cancelled = true then
      some { b with loop := .pass { p with stage := .stale b.confirmedTenants } }
    else none
  | .stale todo =>
    if todo = ∅ ∨ p.abort = true ∨ b.cancelled = true then
      some { b with loop := .pass { p with stage := .psubscribe } }
    else none
  | _ => none

def psubscribe (b : Bus) (p : Pass) (ans : Answer) : Bus :=
  if !p.abort && p.wantAll && !b.confirmedAll && !b.cancelled then
    { b with
      confirmedAll := if ans = .ok then true else b.confirmedAll
      loop := .pass { p.handleFailure ans with stage := .punsubscribe } }
  else { b with loop := .pass { p with stage := .punsubscribe } }

def punsubscribe (b : Bus) (p : Pass) (ans : Answer) : Bus :=
  if !p.abort && !p.wantAll && b.confirmedAll && !b.cancelled then
    { b with
      confirmedAll := if ans = .ok then false else b.confirmedAll
      loop := .pass { p.handleFailure ans with stage := .finish } }
  else { b with loop := .pass { p with stage := .finish } }

def pattern (b : Bus) (p : Pass) (ans : Answer) : Option Bus :=
  match p.stage with
  | .psubscribe => some (b.psubscribe p ans)
  | .punsubscribe => some (b.punsubscribe p ans)
  | _ => none

def rearm (b : Bus) : Bus :=
  { b with retry := some b.backoff, backoff := min (b.backoff * 2) retryMaxBackoff, loop := .top }

def finish (b : Bus) (p : Pass) : Bus :=
  if b.cancelled then b.rearm
  else if p.ok then
    { b.updateEstablished with
      confirmedGen := p.gen, retry := none, backoff := retryInitialBackoff, loop := .top }
  else b.updateEstablished.rearm

def subscriptionsConverged (b : Bus) : Bool := b.confirmedGen == b.desiredGen

end Bus

inductive Act where
  | subscribe (tenantID : GoStr)
  | subscribeAll
  | unsubscribe (tenantID : GoStr) (ch : Chan)
  | unsubscribeAll (ch : Chan)
  | resume (c : Caller)
  | run
  | cancel
  | check
  | done | disconnect | wake | retry | tick
  | snapshot
  | visit (tenantID : GoStr) (ans : Answer)
  | leave
  | pattern (ans : Answer)
  | finish
deriving DecidableEq

def Bus.orSame (b : Bus) : Except BusError Bus → Bus
  | .ok b' => b'
  | .error _ => b

def step (b : Bus) : Act → Option Bus
  | .subscribe t => some (b.orSame (b.subscribe t))
  | .subscribeAll => some b.subscribeAll
  -- a caller can only name a channel that a subscribing call has returned to it
  | .unsubscribe t ch => if b.returned ch then some (b.orSame (b.unsubscribe t ch)) else none
  | .unsubscribeAll ch => if b.returned ch then some (b.orSame (b.unsubscribeAll ch)) else none
  | .resume c => if c ∈ b.callers then some (b.resume c) else none
  | .run => if b.loop = .idle then some { b with loop := .top } else none
  | .cancel => some { b with cancelled := true }
  | .check => if b.loop = .top then some { b with loop := if b.cancelled then .stopped else .select } else none
  | .done => if b.loop = .select ∧ b.cancelled = true then some { b with loop := .stopped } else none
  | .disconnect => if b.loop = .select then some { b.reinitDedicatedClient with loop := .converge } else none
  | .wake => if b.loop = .select ∧ b.subWake = true then some { b with subWake := false, loop := .converge } else none
  | .retry => if b.loop = .select ∧ b.retry.isSome then some { b with retry := none, loop := .converge } else none
  | .tick => if b.loop = .select then some { b with loop := .converge } else none
  | .snapshot => if b.loop = .converge then some { b with loop := .pass b.snapshot } else none
  | .visit t ans => b.loop.pass?.bind fun p => b.visit p t ans
  | .leave => b.loop.pass?.bind fun p => b.leave p
  | .pattern ans => b.loop.pass?.bind fun p => b.pattern p ans
  | .finish => b.loop.pass?.bind fun p => if p.stage = .finish then some (b.finish p) else none

end Sukko.Broadcast
