import Rayforce.Error
import Rayforce.Lib.Slots
import Rayforce.Lib.Transition

/-! The TCP client (`ipc.rs`).  A handle is a slot of the runtime's event loop, and a client hears
that the core closed its connection only from an error of its own exchange. -/

namespace Rayforce.Ipc

open Slots

def closed : Int := -1

def maxTimeoutMs : Int := (2 ^ 63 - 1) / 2

/-- `timeout_ms` of a duration in nanoseconds. -/
def timeoutMs (timeout : Nat) : Except RayError Int :=
  if timeout = 0 then .error (.binding "TcpClient: a send timeout must be greater than zero")
  else
    -- `div_ceil`
    let ms : Nat := (timeout + 999999) / 1000000
    .ok (if (ms : Int) ≤ 2 ^ 63 - 1 then min ms maxTimeoutMs else maxTimeoutMs)

/-- A client, with the number of the connection its connect opened. -/
structure Client where
  handle : Int
  own : Nat
  dropped : Bool
  deriving DecidableEq, Repr

/-- A call of `ray_ipc_send_timeout` that has not returned. -/
structure Exchange where
  client : Nat
  handle : Int
  /-- The connection is gone, or there never was one. -/
  lost : Bool
  deriving DecidableEq, Repr

/-- A call of `ray_ipc_send_timeout`, `ray_ipc_send_async` or `ray_ipc_close`: whose connection it
is for, and which it reaches. -/
structure Act where
  own : Nat
  reached : Option Nat
  deriving DecidableEq, Repr

structure State where
  /-- The connections of the loop, by their numbers. -/
  conns : Slots Nat
  /-- How many connections have been opened. -/
  opened : Nat
  clients : List Client
  /-- The innermost exchange stands first: the others wait for a frame that is evaluated in it. -/
  exchanges : List Exchange
  acts : List Act

def initial : State := ⟨[], 0, [], [], []⟩

/-- What `ray_ipc_send_timeout` returns, once it is materialized. -/
inductive Reply
  | null
  | error (error : RayError)
  | value (materialized : Except RayError Unit)

inductive Refusal
  | authRequired | authFailed | wireVersion | timeout
  | os (text : String)
  | refused

def Refusal.reason : Refusal → String
  | .authRequired => "server requires authentication"
  | .authFailed => "authentication failed"
  | .wireVersion => "wire version mismatch"
  | .timeout => "timed out"
  | .os text => text
  | .refused => "connection refused"

def State.at? (s : State) (handle : Int) : Option Nat :=
  if handle < 0 then none else Slots.at? s.conns handle.toNat

def State.isLive (s : State) (handle : Int) : Bool := (s.at? handle).isSome

def State.opening (s : State) : State :=
  { s with conns := register s.conns s.opened, opened := s.opened + 1 }

/-- The core closes the connection in a slot, under whatever exchange is on it. -/
def State.closing (s : State) (handle : Int) : State :=
  { s with
    conns := if handle < 0 then s.conns else release s.conns handle.toNat
    exchanges := s.exchanges.map fun x => if x.handle = handle then { x with lost := true } else x }

def State.act (s : State) (c : Client) : State :=
  { s with acts := s.acts ++ [⟨c.own, s.at? c.handle⟩] }

/-- `CString::new` of an argument. -/
def cString (name text : String) : Except RayError Unit :=
  if text.toList.contains (Char.ofNat 0) then .error (.binding s!"{name} contains NUL") else .ok ()

/-- Whether a connect opens a connection. -/
def connecting (host : String) (port : Nat) (user password : String) (answer : Except Refusal Unit) :
    Except RayError Unit := do
  cString "host" host
  cString "user" user
  cString "password" password
  match answer with
  | .error refusal => .error (.binding s!"connect to {host}:{port} failed: {refusal.reason}")
  | .ok () => .ok ()

def State.connect (s : State) (host : String) (port : Nat) (user password : String)
    (answer : Except Refusal Unit) : Except RayError State := do
  connecting host port user password answer
  let handle : Int := free s.conns
  .ok { s.opening with clients := s.clients ++ [⟨handle, s.opened, false⟩] }

def Client.liveHandle (c : Client) : Except RayError Int :=
  if c.handle = closed then
    .error (.binding "TcpClient: the connection is closed (a send timed out, or the server went away)")
  else .ok c.handle

/-- `TcpClient::round_trip`, up to its call of `ray_ipc_send_timeout`, with the milliseconds that is
given. -/
def State.roundTrip (s : State) (j : Nat) (c : Client) (timeoutMs : Int) :
    Except RayError (Int × State) := do
  let handle ← c.liveHandle
  .ok (timeoutMs, { s.act c with exchanges := ⟨j, handle, !s.isLive handle⟩ :: s.exchanges })

/-- `TcpClient::send`, and `TcpClient::send_timeout` where there is a timeout. -/
def State.send (s : State) (j : Nat) (c : Client) : Option Nat → Except RayError (Int × State)
  | none => s.roundTrip j c 0
  | some timeout => do s.roundTrip j c (← timeoutMs timeout)

/-- The rest of `TcpClient::round_trip`. -/
def State.received (s : State) (x : Exchange) (c : Client) : Reply → Except RayError Unit × State
  | .null => (.error (.binding "ipc send failed"), s)
  | .error error =>
    (.error error,
      if s.isLive x.handle then s
      else { s with clients := s.clients.set x.client { c with handle := closed } })
  | .value materialized => (materialized, s)

/-- `TcpClient::send_async`, whose call of the core answers with an error code. -/
def State.sendAsync (s : State) (c : Client) (code : Nat) : Except RayError Unit × State :=
  match c.liveHandle with
  | .error error => (.error error, s)
  | .ok _ =>
    (if code = 0 then .ok () else .error (.binding s!"ipc send_async failed (err {code})"), s.act c)

def State.drop (s : State) (c : Client) : State :=
  if c.handle = closed then s else (s.act c).closing c.handle

inductive Event
  | connect (host : String) (port : Nat) (user password : String) (answer : Except Refusal Unit)
  /-- Somebody else's connection. -/
  | «open»
  /-- The core closes the connection in a slot, in an exchange or where the loop sees its end. -/
  | close (id : Nat)
  | send (j : Nat) (timeout : Option Nat)
  /-- The innermost exchange returns. -/
  | received (reply : Reply)
  | sendAsync (j code : Nat)
  | drop (j : Nat)

def State.client? (s : State) (j : Nat) : Option Client := s.clients[j]?.filter (!·.dropped)

/-- An exchange whose connection is gone returns an error. -/
def Exchange.admits (x : Exchange) : Reply → Bool
  | .error _ => true
  | _ => !x.lost

/-- The state after an event, where the event can happen. -/
def next (s : State) : Event → Option State
  | .connect host port user password answer =>
    match s.connect host port user password answer with
    | .ok s => some s
    | .error _ => some s
  | .open => some s.opening
  | .close id => if (Slots.at? s.conns id).isSome then some (s.closing id) else none
  | .send j timeout => (s.client? j).map fun c =>
    match s.send j c timeout with
    | .ok (_, s) => s
    | .error _ => s
  | .received reply =>
    match s.exchanges with
    | [] => none
    | x :: rest =>
      if x.admits reply then
        (s.client? x.client).map fun c => ({ s with exchanges := rest }.received x c reply).2
      else none
  | .sendAsync j code => (s.client? j).map fun c => (s.sendAsync c code).2
  | .drop j =>
    -- a client is borrowed while it exchanges
    if s.exchanges.any (·.client == j) then none
    else (s.client? j).map fun c =>
      let s := s.drop c
      { s with clients := s.clients.set j { c with dropped := true } }

end Rayforce.Ipc
