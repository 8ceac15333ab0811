import Rayforce.Error

/-! What the hooks, the watcher and the handle of a guarded server share (`serve.rs`, `Shared`):
the registration of the request being evaluated, the ends recorded so far, and the critical
sections that change them together with the core's interrupt flag. -/

namespace Rayforce.Serve

/-- A reading of the server's clock, in nanoseconds. -/
abbrev Instant := Nat

/-- A length of time, in nanoseconds. -/
abbrev Duration := Nat

def Instant.saturatingDurationSince (later earlier : Instant) : Duration := later - earlier

inductive By
  | budget | hangup | client
  deriving DecidableEq, Repr

inductive Ended
  | answered
  | failed (code : ErrorCode)
  | cancelled (stopper : By)
  deriving DecidableEq, Repr

/-- One request the server evaluated.  A text is the bytes of its `String`. -/
structure RequestEnd where
  text : List UInt8
  duration : Duration
  ended : Ended
  deriving DecidableEq, Repr

/-- An object the core hands back from an evaluation: the null singleton, an error object, or any
other object. -/
inductive Answer
  | null
  | object (id : Nat)
  | error (id : Nat) (err : RayErrT)
  deriving DecidableEq, Repr

/-- `code_of` where `raw::is_err` holds of the answer, and nothing where it does not. -/
def Answer.code : Answer → Option ErrorCode
  | .error _ err => some (.fromErrT err)
  | _ => none

structure Running where
  fd : Int
  timeStarted : Instant
  stoppedBy : Option By
  deriving DecidableEq, Repr

structure Shared where
  budget : Option Duration
  running : Option Running
  ends : List RequestEnd
  stop : Bool
  deriving DecidableEq, Repr

/-- The core's interrupt flag, kept apart by who raised it: the watcher, or the core itself for a
client's cancel.  `requests` counts the calls of `ray_request_interrupt`. -/
structure Interrupt where
  watcher : Bool
  client : Bool
  requests : Nat
  deriving DecidableEq, Repr

/-- `ray_request_interrupt`, called by the watcher. -/
def Interrupt.request (i : Interrupt) : Interrupt :=
  { i with watcher := true, requests := i.requests + 1 }

def Interrupt.clear (i : Interrupt) : Interrupt :=
  { i with watcher := false, client := false }

/-- Register the request about to be evaluated.  False when one already is. -/
def Shared.begin (s : Shared) (fd : Int) (now : Instant) : Bool × Shared :=
  match s.running with
  | some _ => (false, s)
  | none => (true, { s with running := some ⟨fd, now, none⟩ })

/-- The critical section of `finish`: clear the core's flag and take the registration. -/
def Shared.take (s : Shared) (i : Interrupt) : Option Running × Shared × Interrupt :=
  (s.running, { s with running := none }, i.clear)

/-- How `finish` reads the end of a request. -/
def endedOf (answer : Answer) (stoppedBy : Option By) : Ended :=
  match answer.code, stoppedBy with
  | some .cancel, some stopper => .cancelled stopper
  | some .cancel, none => .cancelled .client
  | some code, _ => .failed code
  | none, _ => .answered

/-- The end that `finish` records. -/
def requestEnd (run : Running) (text : List UInt8) (answer : Answer) (now : Instant) :
    RequestEnd where
  text := text
  duration := now.saturatingDurationSince run.timeStarted
  ended := endedOf answer run.stoppedBy

/-- The rest of `finish`: keep how the request ended. -/
def Shared.record (s : Shared) (e : RequestEnd) : Shared := { s with ends := s.ends ++ [e] }

/-- Whether the client on `fd` has closed its end: `closed` is what a peek on the socket finds.
A descriptor that is not one is never asked. -/
def peerGone (fd : Int) (closed : Bool) : Bool :=
  if fd < -2147483648 ∨ 2147483647 < fd then false else if fd < 0 then false else closed

/-- Why `check` stops a request that is still running, if it does. -/
def stopper (budget : Option Duration) (run : Running) (now : Instant) (closed : Bool) :
    Option By :=
  if budget.any (· ≤ now.saturatingDurationSince run.timeStarted) then some .budget
  else if peerGone run.fd closed then some .hangup
  else none

/-- Stop the running request if it is past its budget or its client is gone. -/
def Shared.check (s : Shared) (i : Interrupt) (now : Instant) (closed : Bool) :
    Shared × Interrupt :=
  match s.running with
  | some ⟨fd, timeStarted, none⟩ =>
    match stopper s.budget ⟨fd, timeStarted, none⟩ now closed with
    | some b => ({ s with running := some ⟨fd, timeStarted, some b⟩ }, i.request)
    | none => (s, i)
  | _ => (s, i)

/-- The requests that ended since the last call, oldest first. -/
def Shared.drain (s : Shared) : List RequestEnd × Shared := (s.ends, { s with ends := [] })

end Rayforce.Serve
