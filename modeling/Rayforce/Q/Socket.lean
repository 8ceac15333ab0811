import Rayforce.Error
import Rayforce.Q.Subscription

/-! The sockets of q connections (`q.rs`): a handle closes its own with `q_close`, until an attach
hands it to the loop.  What the core does on its own it does inside a call, so that it may have
deregistered a connection again when `q_conn_attach` returns. -/

namespace Rayforce.Q

open Slots

/-- Who released a socket. -/
inductive Releaser
  | qClose | qConnClose | core
  deriving DecidableEq, Repr

/-- A runtime's q connections and its loop.  A socket is the number of the `q_connect` that opened
it. -/
structure Machine where
  loop : State
  /-- The socket under a connection, if it is one of `q_connect`'s. -/
  under : Nat → Option Nat
  /-- How many sockets `q_connect` returned. -/
  opened : Nat
  /-- The socket of each `QConnection`, until it is dropped or attached. -/
  handles : List (Option Nat)
  /-- The attach that has called `q_conn_attach` and looks its selector up next: the selector, and the
  connection's number. -/
  attaching : Option (Nat × Nat)
  destroyed : Bool
  released : List (Nat × Releaser)
  /-- Of each call of `q_conn_close`, whether its selector resolved. -/
  closes : List Bool

def start : Machine := ⟨initial, fun _ => none, 0, [], none, false, [], []⟩

/-- The socket under a slot's connection. -/
def Machine.socket (m : Machine) (slot : Option Conn) : Option Nat := slot.bind fun conn => m.under conn.number

/-! ### The core -/

def Machine.qClose (m : Machine) (fd : Nat) : Machine :=
  { m with released := m.released ++ [(fd, .qClose)] }

/-- A selector is deregistered, and what is under it closed. -/
def Machine.deregister (m : Machine) (id : Nat) (releaser : Releaser) : Machine :=
  { m with
    loop := { m.loop with conns := release m.loop.conns id }
    released := m.released ++ (m.socket (at? m.loop.conns id)).toList.map fun fd => (fd, releaser) }

def Machine.qConnClose (m : Machine) (id : Nat) : Machine :=
  { m.deregister id .qConnClose with closes := m.closes ++ [(at? m.loop.conns id).isSome] }

/-- A connection is registered, over a socket or over one of somebody else's. -/
def Machine.register (m : Machine) (data : Address) (fd : Option Nat) : Machine :=
  { m with
    loop := (m.loop.register data).2
    under := Function.update m.under m.loop.registered fd }

/-- `ray_runtime_destroy` takes the loop down, and every selector with it. -/
def Machine.destroy (m : Machine) : Machine :=
  { m with
    loop := { m.loop with conns := [] }
    released := m.released ++ (m.loop.conns.filterMap m.socket).map fun fd => (fd, .core)
    destroyed := true }

/-! ### Handles -/

def connectReason (fd : Int) : String :=
  if fd = -3 then "timed out"
  else if fd = -2 then "handshake/auth failed"
  else "connection failed"

/-- `QConnection::connect_with`, where `q_connect` returns `fd`. -/
def Machine.connectWith (m : Machine) (host user password : String) (port : UInt16) (fd : Int) :
    Except RayError Unit × Machine :=
  let nul (s : String) : Bool := s.toList.contains '\x00'
  if nul host then (.error (.binding "Q host contains NUL"), m)
  else if nul user then (.error (.binding "Q user contains NUL"), m)
  else if nul password then (.error (.binding "Q password contains NUL"), m)
  else if fd < 0 then
    let reason := connectReason fd
    (.error (.binding s!"Q: connect to {host}:{port} {reason}"), m)
  else (.ok (), { m with opened := m.opened + 1, handles := m.handles ++ [some m.opened] })

/-- `QConnection::drop`. -/
def Machine.dropHandle (m : Machine) (i fd : Nat) : Machine :=
  { m with handles := m.handles.set i none }.qClose fd

/-- `QConnection::attach`, up to what `q_conn_attach` answers. -/
def Machine.attach (m : Machine) (i fd : Nat) (answer : Option Address) :
    Except RayError Unit × Machine :=
  let m := { m with handles := m.handles.set i none }
  match answer with
  | none => (.error (.binding "Q: could not attach to the event loop"), m.qClose fd)
  | some data =>
    (.ok (), { m.register data (some fd) with attaching := some (free m.loop.conns, m.loop.registered) })

/-- The rest of it, from the lookup of the selector. -/
def Machine.resolve (m : Machine) (id own : Nat) : Except RayError Unit × Machine :=
  let m := { m with attaching := none }
  match m.loop.selectorData id with
  | none => (.error (.binding "Q: attached selector did not resolve"), m.qConnClose id)
  | some data =>
    let (token, loop) := m.loop.claimSelector id
    (.ok (), { m with loop := { loop with subs := loop.subs ++ [⟨id, data, token, own, false⟩] } })

/-- `Subscription::drop`. -/
def Machine.dropSub (m : Machine) (sub : Subscription) : Machine :=
  let m := if m.loop.isAlive sub then { m with loop := m.loop.act sub }.qConnClose sub.id else m
  { m with loop := m.loop.releaseSelector sub.id sub.token }

inductive SocketEvent
  | connect (host user password : String) (port : UInt16) (fd : Int)
  | dropHandle (i : Nat)
  /-- Nothing where `q_conn_attach` fails. -/
  | attach (i : Nat) (answer : Option Address)
  | resolve
  /-- Somebody else's connection. -/
  | register (data : Address)
  /-- The core notices that the peer of a selector is gone. -/
  | disconnect (id : Nat)
  | send (j : Nat)
  | dropSub (j : Nat)
  | destroy

/-- What can happen while an attach is inside the core. -/
def SocketEvent.inside : SocketEvent → Bool
  | .resolve | .register _ | .disconnect _ => true
  | _ => false

/-- The state after an event, where the event can happen. -/
def Machine.next (m : Machine) (e : SocketEvent) : Option Machine :=
  if m.destroyed || m.attaching.isSome && !e.inside then none
  else
    match e with
    | .connect host user password port fd => some (m.connectWith host user password port fd).2
    | .dropHandle i => ((m.handles[i]?).join).map (m.dropHandle i)
    | .attach i answer =>
      if answer.any m.loop.inUse then none
      else ((m.handles[i]?).join).map fun fd => (m.attach i fd answer).2
    | .resolve => m.attaching.map fun (id, own) => (m.resolve id own).2
    | .register data => if m.loop.inUse data then none else some (m.register data none)
    | .disconnect id => if (at? m.loop.conns id).isSome then some (m.deregister id .core) else none
    | .send j => (m.loop.sub? j).map fun sub =>
      match m.loop.send sub with
      | .ok loop => { m with loop }
      | .error _ => m
    | .dropSub j => (m.loop.sub? j).map fun sub =>
      let m := m.dropSub sub
      { m with loop := { m.loop with subs := m.loop.subs.set j { sub with dropped := true } } }
    | .destroy => some m.destroy

theorem connectWith_cases (m : Machine) (host user password : String) (port : UInt16) (fd : Int) :
    (m.connectWith host user password port fd).2 = m ∨
      (m.connectWith host user password port fd).2 =
        { m with opened := m.opened + 1, handles := m.handles ++ [some m.opened] } := by
  unfold Machine.connectWith
  dsimp only
  repeat' split
  · exact .inl rfl
  · exact .inl rfl
  · exact .inl rfl
  · exact .inl rfl
  · exact .inr rfl

theorem dropSub_attaching (m : Machine) (sub : Subscription) :
    (m.dropSub sub).attaching = m.attaching := by
  unfold Machine.dropSub
  dsimp only
  split <;> rfl

theorem dropSub_loop (m : Machine) (sub : Subscription) : (m.dropSub sub).loop = m.loop.drop sub := by
  unfold Machine.dropSub State.drop
  dsimp only
  split <;> rfl

end Rayforce.Q
