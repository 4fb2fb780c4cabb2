import Sukko.Lib.Steps
import Sukko.Server.Subscriptions
/-
# Pooled connections and broadcasts

`Client` objects are recycled while `Broadcast` holds a snapshot of pointers. One label is one statement. A *lease* is one use
of an object by one connection: the object and the number of times it was taken from the pool.
-/

namespace Sukko.Server

inductive Kind
  | webSocket
  | grpc
deriving DecidableEq

inductive Teardown
  | removeMultiple
  | closeSend
  | put
deriving DecidableEq

def teardown : Kind → List Teardown
  | .webSocket => [.removeMultiple, .closeSend, .put]
  | .grpc => [.closeSend, .removeMultiple, .put]

inductive Phase
  | pooled
  | leased (k : Kind)
  | connecting
  | running (k : Kind)
  | subscribing (k : Kind) (chs : List GoStr)
  | unsubscribing (k : Kind) (chs : List GoStr)
  | closing (todo : List Teardown)
deriving DecidableEq

structure OutgoingMsg where
  channel : GoStr
  seq : Nat
deriving DecidableEq

/-- See `server/connection.go:97`, the fields `Broadcast` and the pool touch. -/
structure Client where
  phase : Phase
  transport : Bool
  sendClosed : Bool
  send : List OutgoingMsg
  seq : Nat
  subscriptions : SubscriptionSet
  gen : Nat
deriving DecidableEq

def Client.new : Client := ⟨.pooled, false, false, [], 0, .empty, 0⟩

abbrev Lease := Ref × Nat

/-- The part of the snapshot not looked at yet, and the client (with its number) that passed the transport check and is sent to
next. -/
structure Broadcast where
  channel : GoStr
  rest : List Ref
  sending : Option (Ref × Nat)
  during : List Lease
deriving DecidableEq

def Broadcast.pending (b : Broadcast) : List Ref := b.sending.toList.map Prod.fst ++ b.rest

inductive Event
  | enqueued (ch : GoStr) (lease : Lease) (seq : Nat) (during : List Lease)
  | dropped (ch : GoStr) (lease : Lease) (seq : Nat)
  | sendOnClosed (ch : GoStr) (lease : Lease)
deriving DecidableEq

structure State where
  client : Ref → Client
  index : SubscriptionIndex
  broadcasts : List Broadcast
  registered : List (Lease × GoStr)
  hist : List Event

def init : State := ⟨fun _ => .new, .empty, [], [], []⟩
def State.lease (s : State) (c : Ref) : Lease := (c, (s.client c).gen)

def State.setClient (s : State) (c : Ref) (cl : Client) : State :=
  { s with client := Function.update s.client c cl }

@[simp] theorem setClient_self (s : State) (c : Ref) (cl : Client) : (s.setClient c cl).client c = cl := by
  simp [State.setClient]

theorem setClient_of_ne {s : State} {c d : Ref} (cl : Client) (h : d ≠ c) : (s.setClient c cl).client d = s.client d := by
  simp [State.setClient, h]

def register (l : Lease) (chs : List GoStr) (reg : List (Lease × GoStr)) : List (Lease × GoStr) :=
  chs.map (l, ·) ++ reg

def unregister (l : Lease) (chs : List GoStr) (reg : List (Lease × GoStr)) : List (Lease × GoStr) :=
  reg.filter fun p => !(p.1 == l && chs.contains p.2)

def State.registeredFor (s : State) (ch : GoStr) : List Lease :=
  (s.registered.filter (·.2 == ch)).map Prod.fst

def Broadcast.noticed (b : Broadcast) (l : Lease) (chs : List GoStr) : Broadcast :=
  if b.channel ∈ chs then { b with during := l :: b.during } else b

inductive Act
  | get (c : Ref) (k : Kind)
  | setTransport (c : Ref)
  | accept (c : Ref)
  | reject (c : Ref)
  | subscribe (c : Ref) (chs : List GoStr)
  | indexAdd (c : Ref)
  | unsubscribe (c : Ref) (chs : List GoStr)
  | indexRemove (c : Ref)
  | disconnect (c : Ref)
  | teardown (c : Ref)
  | drain (c : Ref)
  | snapshot (ch : GoStr)
  | check (i : Nat)
  | send (i : Nat)
deriving DecidableEq

def Client.reset (cl : Client) (k : Kind) : Client :=
  { cl with phase := .leased k, sendClosed := false, send := [], seq := 0
            subscriptions := .empty, gen := cl.gen + 1 }

def Client.putBack (cl : Client) : Client :=
  { cl with phase := .pooled, transport := false, subscriptions := .empty }

def execTeardown (s : State) (c : Ref) (todo : List Teardown) : Teardown → State
  | .removeMultiple =>
    { s.setClient c { s.client c with phase := .closing todo } with
      index := s.index.removeMultiple (s.client c).subscriptions.channels c
      registered := unregister (s.lease c) (s.client c).subscriptions.channels s.registered }
  | .closeSend => s.setClient c { s.client c with phase := .closing todo, sendClosed := true }
  | .put => s.setClient c (s.client c).putBack

def execCheck (s : State) (i : Nat) (b : Broadcast) (c : Ref) (rest : List Ref) : State :=
  if (s.client c).transport then
    let seq := (s.client c).seq + 1
    { s.setClient c { s.client c with seq } with
      broadcasts := s.broadcasts.set i { b with rest, sending := some (c, seq) } }
  else { s with broadcasts := s.broadcasts.set i { b with rest } }

def execSend (bufferSize : Nat) (s : State) (i : Nat) (b : Broadcast) (c : Ref) (seq : Nat) : State :=
  if (s.client c).sendClosed then
    { s with broadcasts := s.broadcasts.set i { b with rest := [], sending := none }
             hist := s.hist ++ [.sendOnClosed b.channel (s.lease c)] }
  else if (s.client c).send.length < bufferSize then
    { s.setClient c { s.client c with send := (s.client c).send ++ [⟨b.channel, seq⟩] } with
      broadcasts := s.broadcasts.set i { b with sending := none }
      hist := s.hist ++ [.enqueued b.channel (s.lease c) seq b.during] }
  else
    { s with broadcasts := s.broadcasts.set i { b with sending := none }
             hist := s.hist ++ [.dropped b.channel (s.lease c) seq] }

def step (bufferSize : Nat) (s : State) : Act → Option State
  | .get c k =>
    match (s.client c).phase with
    | .pooled => some (s.setClient c ((s.client c).reset k))
    | _ => none
  | .setTransport c =>
    match (s.client c).phase with
    | .leased .webSocket => some (s.setClient c { s.client c with phase := .connecting, transport := true })
    | .leased .grpc => some (s.setClient c { s.client c with phase := .running .grpc, transport := true })
    | _ => none
  | .accept c =>
    match (s.client c).phase with
    | .connecting => some (s.setClient c { s.client c with phase := .running .webSocket })
    | _ => none
  | .reject c =>
    match (s.client c).phase with
    | .connecting => some (s.setClient c { s.client c with phase := .closing [.put] })
    | _ => none
  | .subscribe c chs =>
    match (s.client c).phase with
    | .running k =>
      some (s.setClient c { s.client c with
        phase := .subscribing k chs, subscriptions := (s.client c).subscriptions.addMultiple chs })
    | _ => none
  | .indexAdd c =>
    match (s.client c).phase with
    | .subscribing k chs =>
      some { s.setClient c { s.client c with phase := .running k } with
        index := s.index.addMultiple chs c
        registered := register (s.lease c) chs s.registered
        broadcasts := s.broadcasts.map (·.noticed (s.lease c) chs) }
    | _ => none
  | .unsubscribe c chs =>
    match (s.client c).phase with
    | .running .webSocket =>
      some (s.setClient c { s.client c with
        phase := .unsubscribing .webSocket chs
        subscriptions := (s.client c).subscriptions.removeMultiple chs })
    | _ => none
  | .indexRemove c =>
    match (s.client c).phase with
    | .unsubscribing k chs =>
      some { s.setClient c { s.client c with phase := .running k } with
        index := s.index.removeMultiple chs c
        registered := unregister (s.lease c) chs s.registered }
    | _ => none
  | .disconnect c =>
    match (s.client c).phase with
    | .running k => some (s.setClient c { s.client c with phase := .closing (teardown k) })
    | _ => none
  | .teardown c =>
    match (s.client c).phase with
    | .closing (t :: todo) => some (execTeardown s c todo t)
    | _ => none
  | .drain c => some (s.setClient c { s.client c with send := (s.client c).send.tail })
  | .snapshot ch =>
    some { s with broadcasts := s.broadcasts ++ [⟨ch, s.index.get ch, none, s.registeredFor ch⟩] }
  | .check i =>
    match s.broadcasts[i]? with
    | some b =>
      match b.sending, b.rest with
      | none, c :: rest => some (execCheck s i b c rest)
      | _, _ => none
    | none => none
  | .send i =>
    match s.broadcasts[i]? with
    | some b =>
      match b.sending with
      | some (c, seq) => some (execSend bufferSize s i b c seq)
      | none => none
    | none => none

def connectAndSubscribe (c : Ref) (ch : GoStr) : List Act :=
  [.get c .webSocket, .setTransport c, .accept c, .subscribe c [ch], .indexAdd c]

end Sukko.Server
