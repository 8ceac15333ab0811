import Mathlib.Logic.Function.Basic
import Rayforce.Lib.Slots
import Rayforce.Lib.Transition

/-! Subscriptions on one event loop (`q.rs`), which is live throughout.  The core gives a new
connection the first free selector, and the state it allocates for it may lie where that of an
earlier connection lay. -/

namespace Rayforce.Q

open Slots

abbrev Address := Nat

/-- A connection registered on the loop: its number, which nothing in the code can see, and where
its per-connection state lies. -/
structure Conn where
  number : Nat
  data : Address
  deriving DecidableEq, Repr

/-- A subscription, with the number of the connection its attach registered. -/
structure Subscription where
  id : Nat
  data : Address
  token : Nat
  own : Nat
  dropped : Bool
  deriving DecidableEq, Repr

/-- A call of `q_conn_send` or `q_conn_close`: for whose subscription, and which connection it
reaches. -/
structure Act where
  own : Nat
  reached : Option Nat
  deriving DecidableEq, Repr

structure State where
  conns : Slots Conn
  /-- How many connections have been registered. -/
  registered : Nat
  attached : Nat → Option Nat
  nextToken : Nat
  subs : List Subscription
  acts : List Act

def initial : State := ⟨[], 0, fun _ => none, 1, [], []⟩

def State.claimSelector (s : State) (id : Nat) : Nat × State :=
  (s.nextToken,
    { s with
      nextToken := (s.nextToken + 1) % 2 ^ 64
      attached := Function.update s.attached id (some s.nextToken) })

def State.selectorIsClaimedBy (s : State) (id token : Nat) : Bool := s.attached id == some token

def State.releaseSelector (s : State) (id token : Nat) : State :=
  if s.attached id == some token then { s with attached := Function.update s.attached id none }
  else s

/-- `Poll::holds` on the live loop. -/
def State.holds (s : State) (id : Nat) (data : Address) : Bool :=
  match at? s.conns id with
  | none => false
  | some sel => sel.data == data

/-- `Poll::selector_data` on the live loop. -/
def State.selectorData (s : State) (id : Nat) : Option Address := (at? s.conns id).map (·.data)

def State.isAlive (s : State) (sub : Subscription) : Bool :=
  s.selectorIsClaimedBy sub.id sub.token && s.holds sub.id sub.data

/-- The core registers a connection whose state it allocated at `data`. -/
def State.register (s : State) (data : Address) : Nat × State :=
  (free s.conns,
    { s with
      conns := Slots.register s.conns ⟨s.registered, data⟩
      registered := s.registered + 1 })

/-- `QConnection::attach`, where `q_conn_attach` succeeds. -/
def State.attach (s : State) (data : Address) : State :=
  let own := s.registered
  let (id, s) := s.register data
  match s.selectorData id with
  | none => { s with conns := release s.conns id }
  | some data =>
    let (token, s) := s.claimSelector id
    { s with subs := s.subs ++ [⟨id, data, token, own, false⟩] }

def State.reached (s : State) (id : Nat) : Option Nat := (at? s.conns id).map (·.number)

/-- A call of the core on the selector of a subscription. -/
def State.act (s : State) (sub : Subscription) : State :=
  { s with acts := s.acts ++ [⟨sub.own, s.reached sub.id⟩] }

/-- `Subscription::send`, up to its call of `q_conn_send`. -/
def State.send (s : State) (sub : Subscription) : Except String State :=
  if !s.isAlive sub then .error "Q: subscription is closed" else .ok (s.act sub)

def State.drop (s : State) (sub : Subscription) : State :=
  let s := if s.isAlive sub then { s.act sub with conns := release s.conns sub.id } else s
  s.releaseSelector sub.id sub.token

inductive Event
  /-- Nothing where `q_conn_attach` fails. -/
  | attach (data : Option Address)
  /-- Somebody else's connection: a peer that a listener accepts, or a `TcpClient`. -/
  | register (data : Address)
  /-- The core notices that the peer of a selector is gone. -/
  | disconnect (id : Nat)
  | isAlive (j : Nat)
  | send (j : Nat)
  | drop (j : Nat)
  deriving DecidableEq, Repr

def State.inUse (s : State) (data : Address) : Bool :=
  s.conns.any fun slot => slot.any fun conn => conn.data == data

def State.sub? (s : State) (j : Nat) : Option Subscription :=
  s.subs[j]?.filter (!·.dropped)

/-- The state after an event, where the event can happen. -/
def next (s : State) : Event → Option State
  | .attach none => some s
  | .attach (some data) => if s.inUse data then none else some (s.attach data)
  | .register data => if s.inUse data then none else some (s.register data).2
  | .disconnect id =>
    if (at? s.conns id).isSome then some { s with conns := release s.conns id } else none
  | .isAlive j => (s.sub? j).map fun _ => s
  | .send j => (s.sub? j).map fun sub =>
    match s.send sub with
    | .ok s => s
    | .error _ => s
  | .drop j => (s.sub? j).map fun sub =>
    let s := s.drop sub
    { s with subs := s.subs.set j { sub with dropped := true } }

end Rayforce.Q
