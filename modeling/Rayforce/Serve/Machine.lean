import Rayforce.Lib.Transition
import Rayforce.Serve.Request

/-! A guarded server as a machine (`serve.rs`).  The loop's thread keeps a stack of the evaluations
it is inside: pushes that no guard sees, calls of the guard, and the drop of the server.  The
watcher's thread tests the stop flag and checks the running request.  Each critical section under
a lock is one step, and the steps of the two threads interleave freely. -/

namespace Rayforce.Serve

/-- Where a call of the guard stands. -/
inductive Phase
  /-- `INSTALLED` has been read. -/
  | entered (installed : Bool)
  /-- `connection_fd` is evaluating `(.ipc.handle)`. -/
  | asking
  /-- `begin` has answered. -/
  | ready (registered : Bool)
  /-- The core is evaluating the payload. -/
  | evaluating (registered : Bool)
  | answered (registered : Bool) (answer : Answer)
  /-- `finish` has left its critical section with the registration it took. -/
  | taken (answer : Answer) (run : Running)
  | returning (answer : Answer)
  deriving DecidableEq, Repr

inductive Frame
  /-- An evaluation that is not the guard's: a frame pushed on the Q wire, or a source the
  embedding evaluates. -/
  | push
  | call (k : Nat) (payload : Payload) (phase : Phase)
  /-- The drop of the server, before and after it has joined the watcher. -/
  | drop (joined : Bool)
  deriving DecidableEq, Repr

inductive Watcher
  | testing | checking | exited
  deriving DecidableEq, Repr

structure State where
  shared : Shared
  /-- `INSTALLED` names this server. -/
  installed : Bool
  /-- The `IpcServer` has not been dropped. -/
  served : Bool
  interrupt : Interrupt
  stack : List Frame
  watcher : Watcher
  /-- The number of calls of the guard so far, which names the next one. -/
  calls : Nat
  deriving DecidableEq, Repr

/-- The server that `start` hands back. -/
def initial (budget : Option Duration) : State where
  shared := ⟨budget, none, [], false⟩
  installed := true
  served := true
  interrupt := ⟨false, false, 0⟩
  stack := []
  watcher := .testing
  calls := 0

/-- The events of a run, each with what it reads from outside and what it shows. -/
inductive Event
  | push
  | pop
  | call (k : Nat) (payload : Payload)
  | ask (k : Nat)
  | begin (k : Nat) (fd : Int) (now : Instant) (registered : Bool)
  | evaluate (k : Nat) (request : Request)
  | answer (k : Nat) (raw : Option Answer)
  | take (k : Nat)
  | record (k : Nat) (now : Instant) (ended : RequestEnd)
  | ret (k : Nat) (answer : Answer)
  | drain (ends : List RequestEnd)
  | stop
  | join
  | uninstall
  | watch (stopped : Bool)
  | check (now : Instant) (closed : Bool)
  /-- A check that finds no request, or one already stopped. -/
  | idle
  /-- The core raises its flag for a client's cancel. -/
  | cancel
  deriving DecidableEq, Repr

/-- The code of this frame is inside an evaluation, from which anything may be called. -/
def Frame.open : Frame → Bool
  | .push | .call _ _ .asking | .call _ _ (.evaluating _) | .drop true => true
  | _ => false

/-- The loop's thread may start an evaluation, a call of the guard, or the drop of the server. -/
def State.Open (s : State) : Prop := ∀ f ∈ s.stack.head?, f.open = true

instance (s : State) : Decidable s.Open :=
  inferInstanceAs (Decidable (∀ f ∈ s.stack.head?, f.open = true))

/-- `finish` after its critical section: without a registration it returns at once. -/
def afterTake (answer : Answer) : Option Running → Phase
  | some run => .taken answer run
  | none => .returning answer

inductive Step : State → Event → State → Prop
  | push {s : State} : s.Open → Step s .push { s with stack := .push :: s.stack }
  | pop {s : State} {rest : List Frame} :
      s.stack = .push :: rest → Step s .pop { s with stack := rest }
  | call {s : State} (payload : Payload) : s.Open →
      Step s (.call s.calls payload)
        { s with
          stack := .call s.calls payload (.entered s.installed) :: s.stack
          calls := s.calls + 1 }
  | ask {s : State} {k : Nat} {payload : Payload} {rest : List Frame} :
      s.stack = .call k payload (.entered true) :: rest →
      Step s (.ask k) { s with stack := .call k payload .asking :: rest }
  | begin {s : State} {k : Nat} {payload : Payload} {rest : List Frame} (fd : Int)
      (now : Instant) :
      s.stack = .call k payload .asking :: rest →
      Step s (.begin k fd now (s.shared.begin fd now).1)
        { s with
          shared := (s.shared.begin fd now).2
          stack := .call k payload (.ready (s.shared.begin fd now).1) :: rest }
  /-- With nothing installed the payload is evaluated and no request registered. -/
  | evaluateUninstalled {s : State} {k : Nat} {payload : Payload} {rest : List Frame} :
      s.stack = .call k payload (.entered false) :: rest →
      Step s (.evaluate k (evaluate payload))
        { s with stack := .call k payload (.evaluating false) :: rest }
  | evaluate {s : State} {k : Nat} {payload : Payload} {registered : Bool} {rest : List Frame} :
      s.stack = .call k payload (.ready registered) :: rest →
      Step s (.evaluate k (evaluate payload))
        { s with stack := .call k payload (.evaluating registered) :: rest }
  | answer {s : State} {k : Nat} {payload : Payload} {registered : Bool} {rest : List Frame}
      (raw : Option Answer) :
      s.stack = .call k payload (.evaluating registered) :: rest →
      Step s (.answer k raw)
        { s with stack := .call k payload (.answered registered (owned raw)) :: rest }
  | take {s : State} {k : Nat} {payload : Payload} {answer : Answer} {rest : List Frame} :
      s.stack = .call k payload (.answered true answer) :: rest →
      Step s (.take k)
        { s with
          shared := (s.shared.take s.interrupt).2.1
          interrupt := (s.shared.take s.interrupt).2.2
          stack := .call k payload (afterTake answer (s.shared.take s.interrupt).1) :: rest }
  | record {s : State} {k : Nat} {payload : Payload} {answer : Answer} {run : Running}
      {rest : List Frame} (now : Instant) :
      s.stack = .call k payload (.taken answer run) :: rest →
      Step s (.record k now (requestEnd run (textOf payload) answer now))
        { s with
          shared := s.shared.record (requestEnd run (textOf payload) answer now)
          stack := .call k payload (.returning answer) :: rest }
  | retUnregistered {s : State} {k : Nat} {payload : Payload} {answer : Answer}
      {rest : List Frame} :
      s.stack = .call k payload (.answered false answer) :: rest →
      Step s (.ret k answer) { s with stack := rest }
  | ret {s : State} {k : Nat} {payload : Payload} {answer : Answer} {rest : List Frame} :
      s.stack = .call k payload (.returning answer) :: rest →
      Step s (.ret k answer) { s with stack := rest }
  | drain {s : State} : s.served = true → s.Open →
      Step s (.drain s.shared.drain.1) { s with shared := s.shared.drain.2 }
  | stop {s : State} : s.served = true → s.Open →
      Step s .stop
        { s with
          shared := { s.shared with stop := true }
          served := false
          stack := .drop false :: s.stack }
  | join {s : State} {rest : List Frame} :
      s.stack = .drop false :: rest → s.watcher = .exited →
      Step s .join { s with stack := .drop true :: rest }
  | uninstall {s : State} {rest : List Frame} : s.stack = .drop true :: rest →
      Step s .uninstall { s with installed := false, stack := rest }
  | watch {s : State} : s.watcher = .testing →
      Step s (.watch s.shared.stop)
        { s with watcher := if s.shared.stop then .exited else .checking }
  | check {s : State} {run : Running} (now : Instant) (closed : Bool) :
      s.watcher = .checking → s.shared.running = some run → run.stoppedBy = none →
      Step s (.check now closed)
        { s with
          shared := (s.shared.check s.interrupt now closed).1
          interrupt := (s.shared.check s.interrupt now closed).2
          watcher := .testing }
  | idle {s : State} : s.watcher = .checking →
      (∀ run ∈ s.shared.running, run.stoppedBy ≠ none) →
      Step s .idle { s with watcher := .testing }
  | cancel {s : State} : Step s .cancel { s with interrupt := { s.interrupt with client := true } }

end Rayforce.Serve
